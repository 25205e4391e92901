import VcpMediaServer.Sources

/-!
# One source for each stream

A whole server: all its sources on one manager, and the HTTP requests that make and
remove streams. `publish_frame` and `set_stream_sps_pps` never look at the slot of a
stream, so that it is the sources which must **leave each other's streams alone**.

* `Server.step` — one event of a source, or a request.
* `Server.SingleSource` — what a source stores for a stream comes from its publisher,
  and from a puller only while no other source is active on it.
* `single_source` — along every run in which each source meets the condition of its
  own module, pullers start only where the slot is free and nobody else pulls, and
  no slot is taken under a puller.
-/

namespace VcpMediaServer

open Lts Ownership StreamManager

/-- A server. -/
structure Server where
  /-- The streams. -/
  manager : StreamManager
  /-- The sources, in the order of their arrival. -/
  sources : List Source

/-- What happens to a server. -/
inductive ServerEvent where
  /-- `POST /api/streams`. -/
  | createStream (s : StreamId) (source : StreamSourceMode) (protocol : StreamProtocol)
      (pullUrl : Option String)
  /-- `DELETE /api/stream/<id>`. -/
  | removeStream (s : StreamId)
  /-- An event of a source. -/
  | source (i : ℕ) (e : SourceEvent)
  deriving DecidableEq, Repr

namespace Server

/-- A server that was just started, before its sources do anything. -/
def start (parties : List Party) : Server := ⟨.new, parties.map .new⟩

/-- The sources but the one at `i`. -/
def others (srv : Server) (i : ℕ) : List Source := srv.sources.eraseIdx i

/-- One event; `none` if it cannot happen, or the push of a frame never returns. -/
def step (draws : String → Option ℕ) (srv : Server) : ServerEvent → Option Server
  | .createStream s source protocol pullUrl =>
    some { srv with manager := (srv.manager.createStream s source protocol pullUrl).1 }
  | .removeStream s => some { srv with manager := (srv.manager.removeStream s).1 }
  | .source i e =>
    srv.sources[i]?.bind fun src => (src.step draws srv.manager e).map fun (manager, src) =>
      ⟨manager, srv.sources.set i src⟩

/-- A source stores something for a stream, or resets it, **only** if nobody else holds
the slot, and as a puller only if nobody else pulls to it. A request stores nothing. -/
def SingleSource (draws : String → Option ℕ) (srv : Server) (e : ServerEvent) : Prop :=
  ∀ srv', step draws srv e = some srv' → ∀ k, srv'.manager.media k ≠ srv.manager.media k →
    match e with
    | .source i _ => ∀ src, srv.sources[i]? = some src →
        (∀ p, Holds srv.manager.slots k p → src.party.ids draws p = true) ∧
          (src.party.IsPuller → ∀ o ∈ srv.others i, o.pulled ≠ some k)
    | _ => srv'.manager.media k = noMedia

/-- The condition. A source meets that of its own module, and leaves the streams of the
others alone: none makes the stream that another publishes when it is gone, none takes
the slot of a stream that another pulls to, and no two pull to the same. -/
def Exclusive (draws : String → Option ℕ) (srv : Server) : ServerEvent → Prop
  | .createStream s _ _ _ =>
    srv.manager.slots s = none → ∀ src ∈ srv.sources, src.published ≠ some s
  | .removeStream _ => True
  | .source i e => ∀ src ∈ srv.sources[i]?,
      src.StaysOwn draws srv.manager e ∧
        (∀ s ∈ src.makes e, srv.manager.slots s = none → ∀ o ∈ srv.others i,
          o.published ≠ some s) ∧
        (∀ s ∈ src.takes e, ∀ o ∈ srv.others i, o.pulled ≠ some s) ∧
        ∀ s ∈ src.starts e, ∀ o ∈ srv.others i, o.pulled ≠ some s

instance (draws : String → Option ℕ) (srv : Server) :
    (e : ServerEvent) → Decidable (Exclusive draws srv e)
  | .createStream _ _ _ _ => inferInstanceAs (Decidable (_ → _))
  | .removeStream _ => .isTrue trivial
  | .source _ _ => inferInstanceAs (Decidable (∀ _ ∈ _, _))

/-- Two sources that are not the same publisher. -/
def Apart (a b : Source) : Prop := a.party = b.party → a.party.IsPuller

/-- What carries the property: every source keeps its authority, no two are the same
publisher, and no two pull to the same stream. -/
structure Inv (draws : String → Option ℕ) (srv : Server) : Prop where
  inv : ∀ (i : ℕ) (src : Source), srv.sources[i]? = some src → src.Inv draws srv.manager
  apart : ∀ (i j : ℕ) (a b : Source), i ≠ j → srv.sources[i]? = some a →
    srv.sources[j]? = some b → Apart a b
  pulled : ∀ (i j : ℕ) (a b : Source) (s : StreamId), i ≠ j → srv.sources[i]? = some a →
    srv.sources[j]? = some b → a.pulled = some s → b.pulled ≠ some s

variable {draws : String → Option ℕ} {srv srv' : Server} {e : ServerEvent}

theorem mem_others {i j : ℕ} {o : Source} (hij : j ≠ i) (h : srv.sources[j]? = some o) :
    o ∈ srv.others i :=
  List.mem_eraseIdx_iff_getElem?.mpr ⟨j, hij, h⟩

/-- Sources that are apart act under different ids. -/
theorem Apart.ids {a b : Source} (h : Apart a b) {p : String} (hp : b.party.ids draws p = true) :
    ¬ a.party.ids draws p = true := by
  by_cases hab : a.party = b.party
  · rw [Party.ids_of_isPuller (h hab)]
    exact Bool.false_ne_true
  · rw [Party.ids_apart (Ne.symm hab) hp]
    exact Bool.false_ne_true

/-- An event of a source, taken apart. -/
theorem step_source {i : ℕ} {e : SourceEvent} (h : step draws srv (.source i e) = some srv') :
    ∃ src m' src', srv.sources[i]? = some src ∧
      src.step draws srv.manager e = some (m', src') ∧ srv' = ⟨m', srv.sources.set i src'⟩ := by
  obtain ⟨src, hsrc, h⟩ := Option.bind_eq_some_iff.mp h
  obtain ⟨⟨m', src'⟩, hstep, rfl⟩ := Option.map_eq_some_iff.mp h
  exact ⟨src, m', src', hsrc, hstep, rfl⟩

/-- Every event that meets the condition stores only what it may. -/
theorem singleSource_of_exclusive (hI : Inv draws srv) (hG : Exclusive draws srv e) :
    SingleSource draws srv e := by
  intro srv' h k hk
  cases e with
  | createStream s source protocol url =>
    cases h
    exact absurd (media_createStream _ _ _ _ _ _) hk
  | removeStream s =>
    cases h
    dsimp only at hk ⊢
    by_cases hks : k = s
    · obtain rfl := hks
      apply media_of_slots_eq_none
      rw [slots_removeStream]
      exact remove_self
    · refine absurd (media_congr ?_) hk
      rw [getHub_removeStream, if_neg hks]
  | source i e =>
    obtain ⟨src, m', src', hsrc, hstep, rfl⟩ := step_source h
    obtain ⟨hown, -, -, hstarts⟩ := hG src hsrc
    have hacted := Source.step_acted (hI.inv i src hsrc) hown hstep
    intro src₁ hsrc₁
    obtain rfl := Option.some.inj (hsrc.symm.trans hsrc₁)
    refine ⟨hacted.media k hk, fun hpuller o ho => ?_⟩
    rcases hacted.mediaPulled hpuller k hk with hpulled | hstart
    · obtain ⟨j, hj, ho⟩ := List.mem_eraseIdx_iff_getElem?.mp ho
      exact hI.pulled i j src o k (Ne.symm hj) hsrc ho hpulled
    · exact hstarts k hstart o ho

/-- What nobody does under an id keeps the authority of every source. -/
theorem Inv.of_acts {m' : StreamManager} {makes : Option StreamId} (hI : Inv draws srv)
    (h : Acts (fun _ => False) makes none srv.manager.slots m'.slots)
    (hmakes : ∀ s ∈ makes, srv.manager.slots s = none → ∀ src ∈ srv.sources,
      src.published ≠ some s) : Inv draws { srv with manager := m' } where
  inv i src hsrc := by
    refine (hI.inv i src hsrc).of_acts h (fun _ _ => id) (fun s hs hnone => ?_) nofun
    exact hmakes s hs hnone src (List.mem_of_getElem? hsrc)
  apart := hI.apart
  pulled := hI.pulled

/-- An event of a source keeps the authority of **every** source. -/
theorem Inv.of_source {i : ℕ} {e : SourceEvent} (hI : Inv draws srv)
    (hG : Exclusive draws srv (.source i e)) (h : step draws srv (.source i e) = some srv') :
    Inv draws srv' := by
  obtain ⟨src, m', src', hsrc, hstep, rfl⟩ := step_source h
  obtain ⟨hown, hmakes, htakes, hstarts⟩ := hG src hsrc
  have hacted := Source.step_acted (hI.inv i src hsrc) hown hstep
  have hlt := (List.getElem?_eq_some_iff.mp hsrc).1
  have hself : (srv.sources.set i src')[i]? = some src' := List.getElem?_set_self hlt
  -- the others are where they were
  have hother : ∀ {j : ℕ} {o : Source}, j ≠ i → (srv.sources.set i src')[j]? = some o →
      srv.sources[j]? = some o := by
    intro j o hj ho
    rwa [List.getElem?_set_ne (Ne.symm hj)] at ho
  constructor
  · intro j o ho
    by_cases hj : j = i
    · obtain rfl := hj
      obtain rfl := Option.some.inj (hself.symm.trans ho)
      exact hacted.inv
    · have ho := hother hj ho
      have hmem := mem_others hj ho
      have hapart := hI.apart i j src o (Ne.symm hj) hsrc ho
      exact (hI.inv j o ho).of_acts hacted.acts (fun p hp => hapart.ids hp)
        (fun s hs hnone => hmakes s hs hnone o hmem) fun s hs => htakes s hs o hmem
  · intro j k a b hjk ha hb
    by_cases hj : j = i
    · obtain rfl := hj
      obtain rfl := Option.some.inj (hself.symm.trans ha)
      have hb := hother (Ne.symm hjk) hb
      rw [Apart, hacted.party]
      exact hI.apart j k src b hjk hsrc hb
    · have ha' := hother hj ha
      by_cases hk : k = i
      · obtain rfl := hk
        obtain rfl := Option.some.inj (hself.symm.trans hb)
        rw [Apart, hacted.party]
        exact hI.apart j k a src hjk ha' hsrc
      · exact hI.apart j k a b hjk ha' (hother hk hb)
  · intro j k a b s hjk ha hb hpulled
    by_cases hj : j = i
    · obtain rfl := hj
      obtain rfl := Option.some.inj (hself.symm.trans ha)
      have hb := hother (Ne.symm hjk) hb
      rcases hacted.pulled s hpulled with hp | hs
      · exact hI.pulled j k src b s hjk hsrc hb hp
      · exact hstarts s hs b (mem_others (Ne.symm hjk) hb)
    · have ha' := hother hj ha
      by_cases hk : k = i
      · obtain rfl := hk
        obtain rfl := Option.some.inj (hself.symm.trans hb)
        intro hpulled'
        rcases hacted.pulled s hpulled' with hp | hs
        · exact hI.pulled j k a src s hjk ha' hsrc hpulled hp
        · exact hstarts s hs a (mem_others hj ha') hpulled
      · exact hI.pulled j k a b s hjk ha' (hother hk hb) hpulled

/-- Every event that meets the condition keeps the invariant. -/
theorem inv_step (hI : Inv draws srv) (hG : Exclusive draws srv e)
    (h : step draws srv e = some srv') : Inv draws srv' := by
  cases e with
  | createStream s source protocol url =>
    cases h
    have hacts : Acts (fun _ => False) (some s) none srv.manager.slots
        (srv.manager.createStream s source protocol url).1.slots := by
      rw [slots_createStream]
      exact acts_create _ _ _ _
    refine hI.of_acts hacts fun t ht => ?_
    obtain rfl := Option.some.inj ht
    exact hG
  | removeStream s =>
    cases h
    have hacts : Acts (fun _ => False) none none srv.manager.slots
        (srv.manager.removeStream s).1.slots := by
      rw [slots_removeStream]
      exact acts_remove _ _ _ _ _
    exact hI.of_acts hacts nofun
  | source i e => exact hI.of_source hG h

theorem inv_start {parties : List Party}
    (h : parties.Pairwise fun a b => a = b → a.IsPuller) : Inv draws (start parties) := by
  have hget : ∀ {i : ℕ} {a : Source}, (start parties).sources[i]? = some a →
      ∃ party, parties[i]? = some party ∧ a = .new party := by
    intro i a ha
    rw [start, List.getElem?_map] at ha
    obtain ⟨party, hp, rfl⟩ := Option.map_eq_some_iff.mp ha
    exact ⟨party, hp, rfl⟩
  constructor
  · intro i src hsrc
    obtain ⟨party, -, rfl⟩ := hget hsrc
    exact Source.inv_new draws party
  · intro i j a b hij ha hb
    obtain ⟨pa, hpa, rfl⟩ := hget ha
    obtain ⟨pb, hpb, rfl⟩ := hget hb
    rw [Apart, Source.party_new, Source.party_new]
    obtain ⟨hi, rfl⟩ := List.getElem?_eq_some_iff.mp hpa
    obtain ⟨hj, rfl⟩ := List.getElem?_eq_some_iff.mp hpb
    rcases Nat.lt_or_gt_of_ne hij with hlt | hlt
    · exact List.pairwise_iff_getElem.mp h i j hi hj hlt
    · intro heq
      rw [heq]
      exact List.pairwise_iff_getElem.mp h j i hj hi hlt heq.symm
  · intro i j a b s _ ha _ hpulled
    obtain ⟨party, -, rfl⟩ := hget ha
    simp at hpulled

/-- The messages of an RTMP publisher, as an event of the source at `i`. -/
def rtmpMessage (i : ℕ) (msg : RtmpMessage) : ServerEvent := .source i (.rtmp (.message msg true))

/-- An RTMP publisher of `cam`, and a puller to the same stream. -/
def pullOverRun : List ServerEvent :=
  [.source 0 (.rtmp (.handshake true)),
    rtmpMessage 0 (RtmpRun.commandMessage "publish" [.null, .string "cam"]),
    rtmpMessage 0 RtmpRun.configMessage, .source 1 (.rtmpPuller .created),
    .source 1 (.rtmpPuller .waitOver), .source 1 (.rtmpPuller (.message RtmpRun.keyframeMessage))]

end Server

end VcpMediaServer
