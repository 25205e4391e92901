import VcpMediaServer.History
import VcpMediaServer.Receivers

/-!
# The history of the receivers

Which receivers there are is a matter of what has been called: a receiver is registered from the
call that makes it, for a stream that exists **then**, until it is removed or its stream is.

* `ReceiverCall` — the calls that make and remove streams and receivers.
* `StreamExists`, `Registered` — what the calls so far come to, by their history.
* `streamExists_concat`, `registered_concat` — what one call more does to it.
* `ReceiverManager.Follows` — the manager has what the history says.
* `receiver_registry` — it has, behind every run, if the ids that are generated differ.
-/

namespace VcpMediaServer

open History

/-! ## Calls -/

/-- A call that makes or removes a stream or a receiver, or changes the status of one. -/
inductive ReceiverCall where
  | createStream (streamId : StreamId) (source : StreamSourceMode) (protocol : StreamProtocol)
    (pullUrl : Option String)
  | removeStream (streamId : StreamId)
  /-- The UUID is what the call generates. -/
  | createReceiver (uuid : String) (streamId : StreamId) (mode : StreamSinkMode)
    (protocol : StreamProtocol)
  | createPullReceiver (uuid : String) (streamId : StreamId) (protocol : StreamProtocol)
    (clientAddr : String)
  | createPushReceiver (uuid : String) (streamId : StreamId) (protocol : StreamProtocol)
    (pushAddr : String)
  | removeReceiver (id : ReceiverId)
  | setReceiverStatus (id : ReceiverId) (status : ReceiverStatus)
  deriving DecidableEq, Repr

namespace ReceiverCall

/-- The receiver that a call makes. -/
def created : ReceiverCall → Option StreamReceiver
  | .createReceiver uuid s mode protocol => some (.new uuid s mode protocol)
  | .createPullReceiver uuid s protocol clientAddr =>
    some ((StreamReceiver.new uuid s .pull protocol).withClientAddr clientAddr)
  | .createPushReceiver uuid s protocol pushAddr =>
    some ((StreamReceiver.new uuid s .push protocol).withPushAddr pushAddr)
  | _ => none

/-- The id that a call generates. -/
def generated (c : ReceiverCall) : Option ReceiverId := c.created.map StreamReceiver.id

/-- The stream that a call makes, if it does not exist. -/
def made : ReceiverCall → Option StreamId
  | .createStream s _ _ _ => some s
  | _ => none

/-- The status that a call sets for a receiver. -/
def status (id : ReceiverId) : ReceiverCall → Option ReceiverStatus
  | .setReceiverStatus i status => if i = id then some status else none
  | _ => none

end ReceiverCall

namespace ReceiverManager

/-- The manager behind a call. -/
def apply (m : ReceiverManager) : ReceiverCall → ReceiverManager
  | .createStream s source protocol url => (m.createStream s source protocol url).1
  | .removeStream s => (m.removeStream s).1
  | .createReceiver uuid s mode protocol => (m.createReceiver uuid s mode protocol).1
  | .createPullReceiver uuid s protocol clientAddr =>
    (m.createPullReceiver uuid s protocol clientAddr).1
  | .createPushReceiver uuid s protocol pushAddr =>
    (m.createPushReceiver uuid s protocol pushAddr).1
  | .removeReceiver id => (m.removeReceiver id).1
  | .setReceiverStatus id status => (m.setReceiverStatus id status).1

/-- The manager behind a sequence of calls. -/
def run (calls : List ReceiverCall) : ReceiverManager := calls.foldl apply new

theorem run_concat (calls : List ReceiverCall) (c : ReceiverCall) :
    run (calls ++ [c]) = (run calls).apply c := by
  rw [run, List.foldl_append, run, List.foldl_cons, List.foldl_nil]

end ReceiverManager

/-! ## What the calls come to -/

/-- A stream exists: it was made, and has not been removed since. -/
def StreamExists (calls : List ReceiverCall) (s : StreamId) : Prop :=
  Occurs (fun _ c after => c.made = some s ∧ .removeStream s ∉ after) calls

/-- A receiver is registered: it was made for a stream that existed then, neither it nor the stream
has been removed since, and it has the status that was last set since. -/
def Registered (calls : List ReceiverCall) (r : StreamReceiver) : Prop :=
  Occurs
    (fun before c after =>
      ∃ r₀, c.created = some r₀ ∧ StreamExists before r₀.streamId ∧ .removeReceiver r₀.id ∉ after ∧
        .removeStream r₀.streamId ∉ after ∧
        r = { r₀ with status :=
          ((after.filterMap (ReceiverCall.status r₀.id)).getLast?).getD r₀.status })
    calls

variable {calls : List ReceiverCall} {c : ReceiverCall} {s : StreamId} {r r' : StreamReceiver}

/-- A receiver with the status that a call sets for it. -/
def ReceiverCall.update (c : ReceiverCall) (r : StreamReceiver) : StreamReceiver :=
  { r with status := (c.status r.id).getD r.status }

theorem ReceiverCall.update_of_status (h : ∀ id, c.status id = none) (r : StreamReceiver) :
    c.update r = r := by
  rw [ReceiverCall.update, h, Option.getD_none]

theorem streamExists_concat :
    StreamExists (calls ++ [c]) s ↔ c.made = some s ∨
        (StreamExists calls s ∧ c ≠ .removeStream s) := by
  rw [StreamExists, occurs_concat]
  refine or_congr (by simp) ?_
  constructor
  · rintro ⟨before, c', after, rfl, hmade, hafter⟩
    obtain ⟨hafter, hne⟩ := notMem_concat.mp hafter
    exact ⟨⟨before, c', after, rfl, hmade, hafter⟩, hne⟩
  · rintro ⟨⟨before, c', after, rfl, hmade, hafter⟩, hne⟩
    exact ⟨before, c', after, rfl, hmade, notMem_concat.mpr ⟨hafter, hne⟩⟩

/-- The status that was last set, with one call more. -/
theorem getLast?_status_concat (id : ReceiverId) (after : List ReceiverCall) (c : ReceiverCall)
    (status : ReceiverStatus) :
    (((after ++ [c]).filterMap (ReceiverCall.status id)).getLast?).getD status =
      (c.status id).getD (((after.filterMap (ReceiverCall.status id)).getLast?).getD status) := by
  rw [List.filterMap_append, List.filterMap_cons]
  cases c.status id <;> simp

/-- One call more makes a receiver, or leaves those that it does not remove, with the status that it
sets. -/
theorem registered_concat :
    Registered (calls ++ [c]) r ↔
      (c.created = some r ∧ StreamExists calls r.streamId) ∨
        ∃ r', Registered calls r' ∧ c ≠ .removeReceiver r'.id ∧ c ≠ .removeStream r'.streamId ∧ r =
            c.update r' := by
  rw [Registered, occurs_concat]
  refine or_congr ?_ ?_
  · constructor
    · rintro ⟨r₀, hcreated, hexists, -, -, rfl⟩
      exact ⟨hcreated, hexists⟩
    · rintro ⟨hcreated, hexists⟩
      exact ⟨r, hcreated, hexists, List.not_mem_nil, List.not_mem_nil, rfl⟩
  · constructor
    · rintro ⟨before, c', after, rfl, r₀, hcreated, hexists, hreceiver, hstream, rfl⟩
      obtain ⟨hreceiver, hne⟩ := notMem_concat.mp hreceiver
      obtain ⟨hstream, hne'⟩ := notMem_concat.mp hstream
      refine ⟨_, ⟨before, c', after, rfl, r₀, hcreated, hexists, hreceiver, hstream, rfl⟩, hne,
        hne', ?_⟩
      rw [ReceiverCall.update, getLast?_status_concat]
    · rintro ⟨r', ⟨before, c', after, rfl, r₀, hcreated, hexists, hreceiver, hstream, rfl⟩, hne,
        hne', rfl⟩
      refine ⟨before, c', after, rfl, r₀, hcreated, hexists, notMem_concat.mpr ⟨hreceiver, hne⟩,
        notMem_concat.mpr ⟨hstream, hne'⟩, ?_⟩
      rw [ReceiverCall.update, getLast?_status_concat]

/-- The id of a receiver was generated. -/
theorem Registered.mem_generated (h : Registered calls r) :
    r.id ∈ calls.filterMap ReceiverCall.generated := by
  obtain ⟨before, c, after, rfl, r₀, hcreated, -, -, -, rfl⟩ := h
  refine List.mem_filterMap.mpr ⟨c, List.mem_append_right before List.mem_cons_self, ?_⟩
  rw [ReceiverCall.generated, hcreated]
  rfl

/-- If the ids that are generated differ, an id belongs to one receiver. -/
theorem Registered.unique
    (hids : (calls.filterMap ReceiverCall.generated).Nodup) (h : Registered calls r)
    (h' : Registered calls r') (hid : r.id = r'.id) : r = r' := by
  induction calls using List.reverseRecOn generalizing r r' with
  | nil => exact absurd h not_occurs_nil
  | append_singleton calls c ih =>
    rw [List.filterMap_append] at hids
    -- the id of a new receiver is no id of those before it
    have hfresh : ∀ {r₀}, c.created = some r₀ → ∀ {r₁}, Registered calls r₁ → r₁.id ≠ r₀.id := by
      intro r₀ hcreated r₁ hr₁ heq
      have hc : r₀.id ∈ [c].filterMap ReceiverCall.generated := by
        refine List.mem_filterMap.mpr ⟨c, List.mem_singleton_self c, ?_⟩
        rw [ReceiverCall.generated, hcreated]
        rfl
      exact (List.nodup_append'.mp hids).2.2 (heq ▸ hr₁.mem_generated) hc
    rcases registered_concat.mp h with ⟨hcreated, -⟩ | ⟨r₁, hr₁, -, -, rfl⟩
    · rcases registered_concat.mp h' with ⟨hcreated', -⟩ | ⟨r₂, hr₂, -, -, rfl⟩
      · exact Option.some.inj (hcreated.symm.trans hcreated')
      · exact (hfresh hcreated hr₂ hid.symm).elim
    · rcases registered_concat.mp h' with ⟨hcreated', -⟩ | ⟨r₂, hr₂, -, -, rfl⟩
      · exact (hfresh hcreated' hr₁ hid).elim
      · rw [ih (List.nodup_append'.mp hids).1 hr₁ hr₂ hid]

/-- A call that sets no status leaves the receivers that it does not remove. -/
theorem registered_concat_of_status (hcreated : c.created = none)
    (hstatus : ∀ id, c.status id = none) :
    Registered (calls ++ [c]) r ↔
      Registered calls r ∧ c ≠ .removeReceiver r.id ∧ c ≠ .removeStream r.streamId := by
  have hupdate := ReceiverCall.update_of_status hstatus
  rw [registered_concat, hcreated]
  constructor
  · rintro (⟨hnone, -⟩ | ⟨r', hr', hne, hne', rfl⟩)
    · cases hnone
    · rw [hupdate]
      exact ⟨hr', hne, hne'⟩
  · rintro ⟨hr, hne, hne'⟩
    exact .inr ⟨r, hr, hne, hne', (hupdate r).symm⟩

theorem registered_createStream {s₀ : StreamId} {source : StreamSourceMode}
    {protocol : StreamProtocol} {url : Option String} :
    Registered (calls ++ [.createStream s₀ source protocol url]) r ↔ Registered calls r := by
  rw [registered_concat_of_status rfl fun _ => rfl]
  simp

theorem registered_removeStream {s₀ : StreamId} :
    Registered (calls ++ [.removeStream s₀]) r ↔ Registered calls r ∧ r.streamId ≠ s₀ := by
  rw [registered_concat_of_status rfl fun _ => rfl]
  simp [eq_comm]

theorem registered_removeReceiver {id₀ : ReceiverId} :
    Registered (calls ++ [.removeReceiver id₀]) r ↔ Registered calls r ∧ r.id ≠ id₀ := by
  rw [registered_concat_of_status rfl fun _ => rfl]
  simp [eq_comm]

theorem registered_setReceiverStatus {id₀ : ReceiverId} {status : ReceiverStatus} :
    Registered (calls ++ [.setReceiverStatus id₀ status]) r ↔
      ∃ r', Registered calls r' ∧ r = if r'.id = id₀ then { r' with status } else r' := by
  have hset : ∀ r', ReceiverCall.update (.setReceiverStatus id₀ status) r' =
      if r'.id = id₀ then { r' with status } else r' := by
    intro r'
    rw [ReceiverCall.update, ReceiverCall.status]
    by_cases hid : r'.id = id₀
    · rw [if_pos hid.symm, if_pos hid, Option.getD_some]
    · rw [if_neg (Ne.symm hid), if_neg hid, Option.getD_none]
  rw [registered_concat]
  simp [hset, ReceiverCall.created]

/-- A call that makes a receiver adds it, if its stream exists. -/
theorem registered_concat_of_created {r₀ : StreamReceiver} (hcreated : c.created = some r₀) :
    Registered (calls ++ [c]) r ↔ (r = r₀ ∧ StreamExists calls r₀.streamId) ∨
        Registered calls r := by
  have hstatus : ∀ id, c.status id = none := fun id => by
    cases c with
    | setReceiverStatus => cases hcreated
    | _ => rfl
  have hupdate := ReceiverCall.update_of_status hstatus
  rw [registered_concat]
  refine or_congr ?_ ?_
  · rw [hcreated, Option.some.injEq]
    constructor
    · rintro ⟨rfl, hexists⟩
      exact ⟨rfl, hexists⟩
    · rintro ⟨rfl, hexists⟩
      exact ⟨rfl, hexists⟩
  · constructor
    · rintro ⟨r', hr', -, -, rfl⟩
      rwa [hupdate]
    · intro hr
      refine ⟨r, hr, ?_, ?_, (hupdate r).symm⟩
      · rintro rfl
        cases hcreated
      · rintro rfl
        cases hcreated

/-! ## The manager -/

namespace ReceiverManager

variable {m : ReceiverManager}

/-- The manager has the streams and the receivers that the history says. -/
structure Follows (m : ReceiverManager) (calls : List ReceiverCall) : Prop where
  exists_iff : ∀ s, (m.getHub s).isSome ↔ StreamExists calls s
  receiver_iff : ∀ s id r, m.receiver s id = some r ↔
    Registered calls r ∧ r.streamId = s ∧ r.id = id

theorem Follows.separate (h : m.Follows calls)
    (hids : (calls.filterMap ReceiverCall.generated).Nodup) : m.Separate := by
  intro s s' id r r' hr hr'
  obtain ⟨hreg, rfl, hid⟩ := (h.receiver_iff s id r).mp hr
  obtain ⟨hreg', rfl, hid'⟩ := (h.receiver_iff s' id r').mp hr'
  rw [hreg.unique hids hreg' (hid.trans hid'.symm)]

theorem isSome_getHub_congr {m' : ReceiverManager} {k : StreamId} (h : m'.bareHub k = m.bareHub k) :
    (m'.getHub k).isSome ↔ (m.getHub k).isSome := by
  rw [← Option.isSome_map (f := ReceiverHub.toStreamHub),
    ← Option.isSome_map (f := ReceiverHub.toStreamHub)]
  change (m'.bareHub k).isSome ↔ (m.bareHub k).isSome
  rw [h]

/-- The calls that make receivers register them. -/
theorem apply_of_created (h : c.created = some r) : m.apply c = (m.register r).1 := by
  cases c with
  | createReceiver | createPullReceiver | createPushReceiver =>
    obtain rfl := Option.some.inj h
    rfl
  | _ => cases h

/-- A call that makes, removes or changes a receiver leaves the hubs as they are apart from their
receivers. -/
theorem bareHub_apply (hsep : m.Separate) (c : ReceiverCall) (k : StreamId)
    (hc : c.made = none ∧ ∀ s, c ≠ .removeStream s) : (m.apply c).bareHub k = m.bareHub k := by
  cases c with
  | createStream => cases hc.1
  | removeStream s => exact absurd rfl (hc.2 s)
  | createReceiver | createPullReceiver | createPushReceiver => exact bareHub_register m _ k
  | removeReceiver id => exact bareHub_removeReceiver hsep id k
  | setReceiverStatus id status => exact bareHub_setReceiverStatus hsep id status k

theorem isSome_getHub_apply (hsep : m.Separate) (c : ReceiverCall) (k : StreamId) :
    ((m.apply c).getHub k).isSome ↔ c.made = some k ∨
        ((m.getHub k).isSome ∧ c ≠ .removeStream k) := by
  by_cases hc : c.made = none ∧ ∀ s, c ≠ .removeStream s
  · rw [isSome_getHub_congr (bareHub_apply hsep c k hc), hc.1]
    simp [hc.2 k]
  · cases c with
    | createStream s source protocol url =>
      refine (isSome_getHub_createStream m s k source protocol url).trans ?_
      rw [ReceiverCall.made, Option.some.injEq, eq_comm]
      simp
    | removeStream s =>
      change ((m.removeStream s).1.getHub k).isSome ↔ _
      rw [getHub_removeStream]
      by_cases hk : k = s
      · simp [ReceiverCall.made, hk]
      · simp [ReceiverCall.made, hk, Ne.symm hk]
    | _ => exact absurd ⟨rfl, by simp⟩ hc

/-- Making a receiver adds it to the history and to the manager, if its stream exists. -/
theorem Follows.receiver_register_iff {r₀ : StreamReceiver} (h : m.Follows calls)
    (hfresh : r₀.id ∉ calls.filterMap ReceiverCall.generated) (s : StreamId) (id : ReceiverId)
    (r : StreamReceiver) :
    (m.register r₀).1.receiver s id = some r ↔
      (r = r₀ ∧ StreamExists calls r₀.streamId ∨ Registered calls r) ∧ r.streamId = s ∧
          r.id = id := by
  rw [receiver_register]
  split
  · next hnew =>
    obtain ⟨rfl, rfl, hexists⟩ := hnew
    constructor
    · intro hr
      obtain rfl := Option.some.inj hr
      exact ⟨.inl ⟨rfl, (h.exists_iff _).mp hexists⟩, rfl, rfl⟩
    · rintro ⟨⟨rfl, -⟩ | hreg, -, hid⟩
      · rfl
      · -- a registered receiver with the new id would have been made before
        exact absurd (hid ▸ hreg.mem_generated) hfresh
  · next hold =>
    rw [h.receiver_iff]
    constructor
    · rintro ⟨hreg, hs, hid⟩
      exact ⟨.inr hreg, hs, hid⟩
    · rintro ⟨⟨rfl, hexists⟩ | hreg, rfl, rfl⟩
      · exact absurd ⟨rfl, rfl, (h.exists_iff _).mpr hexists⟩ hold
      · exact ⟨hreg, rfl, rfl⟩

theorem Follows.receiver_removeStream_iff (h : m.Follows calls) (s₀ s : StreamId) (id : ReceiverId)
    (r : StreamReceiver) :
    (m.removeStream s₀).1.receiver s id = some r ↔
      Registered (calls ++ [.removeStream s₀]) r ∧ r.streamId = s ∧ r.id = id := by
  rw [registered_removeStream, receiver_removeStream]
  split
  · next hs =>
    refine iff_of_false (by simp) ?_
    rintro ⟨⟨-, hne⟩, rfl, -⟩
    exact hne hs
  · next hs =>
    rw [h.receiver_iff]
    constructor
    · rintro ⟨hreg, rfl, hid⟩
      exact ⟨⟨hreg, hs⟩, rfl, hid⟩
    · rintro ⟨⟨hreg, -⟩, hs, hid⟩
      exact ⟨hreg, hs, hid⟩

theorem Follows.receiver_removeReceiver_iff (h : m.Follows calls) (hsep : m.Separate)
    (id₀ : ReceiverId) (s : StreamId) (id : ReceiverId) (r : StreamReceiver) :
    (m.removeReceiver id₀).1.receiver s id = some r ↔
      Registered (calls ++ [.removeReceiver id₀]) r ∧ r.streamId = s ∧ r.id = id := by
  rw [registered_removeReceiver, receiver_removeReceiver hsep]
  split
  · next hid =>
    refine iff_of_false (by simp) ?_
    rintro ⟨⟨-, hne⟩, -, rfl⟩
    exact hne hid
  · next hid =>
    rw [h.receiver_iff]
    constructor
    · rintro ⟨hreg, hs, rfl⟩
      exact ⟨⟨hreg, hid⟩, hs, rfl⟩
    · rintro ⟨⟨hreg, -⟩, hs, hid⟩
      exact ⟨hreg, hs, hid⟩

theorem Follows.receiver_setReceiverStatus_iff (h : m.Follows calls) (hsep : m.Separate)
    (id₀ : ReceiverId) (status : ReceiverStatus) (s : StreamId) (id : ReceiverId)
    (r : StreamReceiver) :
    (m.setReceiverStatus id₀ status).1.receiver s id = some r ↔
      Registered (calls ++ [.setReceiverStatus id₀ status]) r ∧ r.streamId = s ∧ r.id = id := by
  rw [registered_setReceiverStatus, receiver_setReceiverStatus hsep]
  constructor
  · split
    · next hid =>
      intro hr
      obtain ⟨r', hr', rfl⟩ := Option.map_eq_some_iff.mp hr
      obtain ⟨hreg', hs, hid'⟩ := (h.receiver_iff s id r').mp hr'
      exact ⟨⟨r', hreg', by rw [if_pos (hid'.trans hid)]⟩, hs, hid'⟩
    · next hid =>
      intro hr
      obtain ⟨hreg', hs, hid'⟩ := (h.receiver_iff s id r).mp hr
      exact ⟨⟨r, hreg', by rw [if_neg fun heq => hid (hid'.symm.trans heq)]⟩, hs, hid'⟩
  · rintro ⟨⟨r', hreg', rfl⟩, rfl, rfl⟩
    have hr' := (h.receiver_iff r'.streamId r'.id r').mpr ⟨hreg', rfl, rfl⟩
    by_cases hid : r'.id = id₀
    · simp only [if_pos hid]
      rw [hr', Option.map_some]
    · simp only [if_neg hid]
      exact hr'

/-- A call that makes no receiver does to the receivers what it does to the history. -/
theorem Follows.receiver_apply_iff (h : m.Follows calls) (hsep : m.Separate) (hc : c.created = none)
    (s : StreamId) (id : ReceiverId) (r : StreamReceiver) :
    (m.apply c).receiver s id = some r ↔ Registered (calls ++ [c]) r ∧ r.streamId = s ∧
        r.id = id := by
  cases c with
  | createStream s₀ source protocol url =>
    rw [registered_createStream, apply, receiver_createStream, h.receiver_iff]
  | removeStream s₀ => exact h.receiver_removeStream_iff s₀ s id r
  | removeReceiver id₀ => exact h.receiver_removeReceiver_iff hsep id₀ s id r
  | setReceiverStatus id₀ status => exact h.receiver_setReceiverStatus_iff hsep id₀ status s id r
  | _ => cases hc

/-- A call does to the manager what it does to the history. -/
theorem Follows.apply (h : m.Follows calls)
    (hids : ((calls ++ [c]).filterMap ReceiverCall.generated).Nodup) :
    (m.apply c).Follows (calls ++ [c]) := by
  rw [List.filterMap_append] at hids
  obtain ⟨hids, -, hfresh⟩ := List.nodup_append'.mp hids
  have hsep := h.separate hids
  refine ⟨fun s => ?_, fun s id r => ?_⟩
  · rw [isSome_getHub_apply hsep, streamExists_concat, h.exists_iff]
  · cases hc : c.created with
    | some r₀ =>
      -- so that the id is not among those generated before
      have hmem : r₀.id ∈ [c].filterMap ReceiverCall.generated := by
        rw [List.filterMap_cons, ReceiverCall.generated, hc]
        exact List.mem_singleton_self _
      rw [registered_concat_of_created hc, apply_of_created hc]
      exact h.receiver_register_iff (fun hold => hfresh hold hmem) s id r
    | none => exact h.receiver_apply_iff hsep hc s id r

/-- Behind every run the manager has what the history says. -/
theorem follows_run (hids : (calls.filterMap ReceiverCall.generated).Nodup) : (run calls).Follows
    calls := by
  induction calls using List.reverseRecOn with
  | nil =>
    refine ⟨fun s => iff_of_false Bool.false_ne_true not_occurs_nil, fun s id r => ?_⟩
    exact iff_of_false (by simp [run, receiver, getHub, new]) fun h => not_occurs_nil h.1
  | append_singleton calls c ih =>
    rw [run_concat]
    refine (ih ?_).apply hids
    rw [List.filterMap_append] at hids
    exact (List.nodup_append'.mp hids).1

end ReceiverManager

/-! ## Without the receivers -/

/-- A call, on the manager without receivers. -/
def StreamManager.applyReceiverCall (sm : StreamManager) : ReceiverCall → StreamManager
  | .createStream s source protocol url => (sm.createStream s source protocol url).1
  | .removeStream s => (sm.removeStream s).1
  | _ => sm

/-- The manager is the `StreamManager` behind the same calls, with receivers. -/
theorem ReceiverManager.extends_run (hids : (calls.filterMap ReceiverCall.generated).Nodup) :
    (run calls).Extends (calls.foldl StreamManager.applyReceiverCall StreamManager.new) := by
  induction calls using List.reverseRecOn with
  | nil => exact extends_new
  | append_singleton calls c ih =>
    rw [List.filterMap_append] at hids
    have hbefore := (List.nodup_append'.mp hids).1
    have hsep := (follows_run hbefore).separate hbefore
    rw [run_concat, List.foldl_append, List.foldl_cons, List.foldl_nil]
    cases c with
    | createStream s source protocol url =>
      exact ((ih hbefore).createStream s source protocol url).1
    | removeStream s => exact ((ih hbefore).removeStream s).1
    | _ => exact (ih hbefore).congr fun k => bareHub_apply hsep _ k ⟨rfl, by simp⟩

/-! ## What a call leaves alone -/

/-- The stream that a call is on; for an id, the stream of the receiver. -/
def ReceiverCall.stream (m : ReceiverManager) : ReceiverCall → Option StreamId
  | .createStream s _ _ _ => some s
  | .removeStream s => some s
  | .createReceiver _ s _ _ => some s
  | .createPullReceiver _ s _ _ => some s
  | .createPushReceiver _ s _ _ => some s
  | .removeReceiver id => (m.getReceiver id).map StreamReceiver.streamId
  | .setReceiverStatus id _ => (m.getReceiver id).map StreamReceiver.streamId

/-- The id of the receiver that a call is on, for the calls that are on one. -/
def ReceiverCall.receiver : ReceiverCall → Option ReceiverId
  | .removeReceiver id => some id
  | .setReceiverStatus id _ => some id
  | c => c.generated

/-- A call leaves everything else alone. -/
structure Isolated (m m' : ReceiverManager) (c : ReceiverCall) : Prop where
  /-- All other streams are as they were, with their receivers. -/
  others : ∀ k, c.stream m ≠ some k → m'.getHub k = m.getHub k
  /-- If the call is on a receiver, no stream changes apart from its receivers. -/
  hubs : ∀ id, c.receiver = some id → ∀ k, m'.bareHub k = m.bareHub k
  /-- Nor do other receivers. -/
  receivers : ∀ id, c.receiver = some id → ∀ k i, i ≠ id → m'.receiver k i = m.receiver k i

namespace ReceiverManager

variable {m : ReceiverManager}

/-- A hub that does not know the id is left alone. -/
theorem Follows.receiver_eq_none (h : m.Follows calls) (hsep : m.Separate) {id : ReceiverId}
    {k : StreamId} (hk : (m.getReceiver id).map StreamReceiver.streamId ≠ some k)
    {hub : ReceiverHub} (hhub : m.getHub k = some hub) :
    hub.getReceiver id = none := by
  by_contra hsome
  obtain ⟨r, hr⟩ := Option.ne_none_iff_exists'.mp hsome
  have hreceiver : m.receiver k id = some r := receiver_eq_some_iff.mpr ⟨hub, hhub, hr⟩
  rw [(getReceiver_eq_some_iff hsep).mpr ⟨k, hreceiver⟩, Option.map_some] at hk
  exact hk (congrArg some ((h.receiver_iff k id r).mp hreceiver).2.1)

theorem Follows.isolated (h : m.Follows calls) (hsep : m.Separate) (c : ReceiverCall) :
    Isolated m (m.apply c) c := by
  refine ⟨fun k hk => ?_, fun id hid k => ?_, fun id hid k i hi => ?_⟩
  · cases c with
    | createStream s source protocol url =>
      exact getHub_createStream_of_ne fun heq => hk (congrArg some heq.symm)
    | removeStream s =>
      exact (getHub_removeStream m s k).trans (if_neg fun heq => hk (congrArg some heq.symm))
    | createReceiver | createPullReceiver | createPushReceiver =>
      exact getHub_register_of_ne fun heq => hk (congrArg some heq.symm)
    | removeReceiver id =>
      refine (getHub_removeReceiver hsep id k).trans ?_
      cases hhub : m.getHub k with
      | none => rfl
      | some hub =>
        have hnone := h.receiver_eq_none hsep hk hhub
        rw [Option.map_some, ReceiverHub.fst_removeReceiver_of_none hnone]
    | setReceiverStatus id status =>
      refine (getHub_setReceiverStatus hsep id status k).trans ?_
      cases hhub : m.getHub k with
      | none => rfl
      | some hub =>
        have hnone : hub.receivers.lookup id = none := h.receiver_eq_none hsep hk hhub
        rw [Option.map_some, ReceiverHub.setReceiverStatus, hnone]
  · apply bareHub_apply hsep
    cases c with
    | createStream | removeStream => cases hid
    | _ => exact ⟨rfl, by simp⟩
  · cases c with
    | createStream | removeStream => cases hid
    | createReceiver | createPullReceiver | createPushReceiver =>
      obtain rfl := Option.some.inj hid
      exact (receiver_register m _ k i).trans (if_neg fun h => hi h.2.1)
    | removeReceiver id =>
      obtain rfl := Option.some.inj hid
      exact (receiver_removeReceiver hsep id k i).trans (if_neg hi)
    | setReceiverStatus id status =>
      obtain rfl := Option.some.inj hid
      exact (receiver_setReceiverStatus hsep id status k i).trans (if_neg hi)

end ReceiverManager

/-- Behind every run of calls whose generated ids differ, the manager lists each registered receiver
once and no other, finds each under its id with the status last set, and leaves everything alone
that the next call is not on. -/
theorem receiver_registry (calls : List ReceiverCall)
    (hids : (calls.filterMap ReceiverCall.generated).Nodup) :
    (ReceiverManager.run calls).listReceivers.Nodup ∧
      (∀ id, id ∈ (ReceiverManager.run calls).listReceivers ↔ ∃ r, Registered calls r ∧ r.id = id) ∧
      (∀ id r, (ReceiverManager.run calls).getReceiver id = some r ↔
        Registered calls r ∧ r.id = id) ∧
      ∀ c, Isolated (ReceiverManager.run calls) ((ReceiverManager.run calls).apply c) c := by
  have hfollows := ReceiverManager.follows_run hids
  have hsep := hfollows.separate hids
  refine ⟨ReceiverManager.nodup_listReceivers hsep, fun id => ?_, fun id r => ?_,
    fun c => hfollows.isolated hsep c⟩
  · rw [ReceiverManager.mem_listReceivers_iff]
    constructor
    · rintro ⟨s, r, hr⟩
      obtain ⟨hreg, -, hid⟩ := (hfollows.receiver_iff s id r).mp hr
      exact ⟨r, hreg, hid⟩
    · rintro ⟨r, hreg, hid⟩
      exact ⟨r.streamId, r, (hfollows.receiver_iff r.streamId id r).mpr ⟨hreg, rfl, hid⟩⟩
  · rw [ReceiverManager.getReceiver_eq_some_iff hsep]
    constructor
    · rintro ⟨s, hr⟩
      obtain ⟨hreg, -, hid⟩ := (hfollows.receiver_iff s id r).mp hr
      exact ⟨hreg, hid⟩
    · rintro ⟨hreg, hid⟩
      exact ⟨r.streamId, (hfollows.receiver_iff r.streamId id r).mpr ⟨hreg, rfl, hid⟩⟩

/-- A receiver of a stream that is removed and made again, one that plays, and one of a stream that
is missing. -/
def registryCalls : List ReceiverCall :=
  [.createStream "a" .push .rtmp none, .createPullReceiver "1" "a" .rtsp "10.0.0.1:554",
    .removeStream "a", .createPushReceiver "2" "a" .rtmp "rtmp://edge/a",
    .createStream "a" .push .rtmp none, .createReceiver "3" "a" .pull .http,
    .setReceiverStatus "a_3" .playing]

example : (ReceiverManager.run registryCalls).listReceivers = ["a_3"] := by decide +kernel

theorem receiver_registry_registryCalls :
    (ReceiverManager.run registryCalls).listReceivers.Nodup ∧
      (∀ id, id ∈ (ReceiverManager.run registryCalls).listReceivers ↔
        ∃ r, Registered registryCalls r ∧ r.id = id) ∧
      (∀ id r, (ReceiverManager.run registryCalls).getReceiver id = some r ↔
        Registered registryCalls r ∧ r.id = id) ∧
      ∀ c, Isolated (ReceiverManager.run registryCalls)
          ((ReceiverManager.run registryCalls).apply c) c :=
  receiver_registry registryCalls (by decide +kernel)

end VcpMediaServer
