import VcpMediaServer.Dispatch

/-!
# Coalescing a batch

`coalesce_flv_batch` takes the playable video out of a batch and puts one frame of it back, behind
everything else: the only one, or the last key frame of several.

* `IsLast`, `IsChoice` — what is put back, for any notion of video and key frame.
* `isChoice_coalesceBy`, `coalesceBy_coalesceBy` — `coalesceBy` puts that back, and is
  **idempotent**.
* `Checked.coalesceFlvBatch` — the loop of the code, with its `expect`, which never fails.
-/

namespace VcpMediaServer

/-! ## What is put back -/

section Choice

variable {α : Type*} {p q video idr : α → Bool} {xs frames : List α} {x f : α} {chosen : Option α}

/-- The last of a list that has a property. -/
def IsLast (p : α → Bool) (xs : List α) (x : α) : Prop :=
  ∃ before after, xs = before ++ x :: after ∧ p x = true ∧ ∀ y ∈ after, p y = false

/-- A search from the back finds the last. -/
theorem find?_reverse_eq_some_iff : xs.reverse.find? p = some x ↔ IsLast p xs x := by
  rw [List.find?_eq_some_iff_append]
  constructor
  · rintro ⟨hx, after, before, hxs, hafter⟩
    refine ⟨before.reverse, after.reverse, ?_, hx, fun y hy => ?_⟩
    · rw [← List.reverse_reverse xs, hxs]
      simp
    · simpa using hafter y (List.mem_reverse.mp hy)
  · rintro ⟨before, after, rfl, hx, hafter⟩
    refine ⟨hx, after.reverse, before.reverse, by simp, fun y hy => ?_⟩
    simpa using hafter y (List.mem_reverse.mp hy)

/-- Nothing is lost by searching among the elements that may have the property. -/
theorem isLast_filter_iff (h : ∀ y, p y = true → q y = true) :
    IsLast p (xs.filter q) x ↔ IsLast p xs x := by
  have hp : (fun y => decide (q y = true ∧ p y = true)) = p := by
    funext y
    cases hy : p y with
    | true => simp [h y hy]
    | false => simp
  rw [← find?_reverse_eq_some_iff, ← find?_reverse_eq_some_iff, ← List.filter_reverse,
    List.find?_filter, hp]

/-- What of the video of a batch is put back: the only frame, else the last key frame. -/
structure IsChoice (video idr : α → Bool) (frames : List α) (chosen : Option α) : Prop where
  only : ∀ f, frames.filter video = [f] → chosen = some f
  last : (∀ f, frames.filter video ≠ [f]) → ∀ f, chosen = some f ↔ IsLast idr frames f

/-- What is put back is video of the batch. -/
theorem IsChoice.mem_filter (h : IsChoice video idr frames chosen)
    (hvideo : ∀ f, idr f = true → video f = true) (hf : chosen = some f) :
    f ∈ frames.filter video := by
  by_cases hone : ∃ g, frames.filter video = [g]
  · obtain ⟨g, hg⟩ := hone
    have hfg : f = g := Option.some.inj (hf.symm.trans (h.only g hg))
    rw [hg, hfg]
    exact List.mem_singleton_self g
  · obtain ⟨before, after, rfl, hkey, -⟩ := (h.last (not_exists.mp hone) f).mp hf
    exact List.mem_filter.mpr ⟨List.mem_append_right before List.mem_cons_self, hvideo f hkey⟩

theorem coalesceBy_eq (video idr : α → Bool) (frames : List α)
    (hvideo : ∀ f, idr f = true → video f = true) :
    ∃ chosen : Option α, coalesceBy video idr frames =
      frames.filter (fun f => !video f) ++ chosen.toList ∧
      IsChoice video idr frames chosen := by
  have hlast : ∀ f, (frames.filter video).reverse.find? idr = some f ↔ IsLast idr frames f :=
    fun f => by
    rw [find?_reverse_eq_some_iff, isLast_filter_iff hvideo]
  rw [coalesceBy]
  rcases hframes : frames.filter video with _ | ⟨f, _ | ⟨g, videos⟩⟩
  · refine ⟨none, rfl, by simp [hframes], fun _ f => ?_⟩
    rw [← hlast, hframes]
    rfl
  · refine ⟨some f, rfl, fun g hg => ?_, fun h => absurd hframes (h f)⟩
    rw [hframes] at hg
    rw [List.cons.inj hg |>.1]
  · rw [hframes] at hlast
    exact ⟨_, rfl, by simp [hframes], fun _ => hlast⟩

/-- What is coalesced has at most one frame of video, so that it is left as it is. -/
theorem coalesceBy_coalesceBy (frames : List α) (hvideo : ∀ f, idr f = true → video f = true) :
    coalesceBy video idr (coalesceBy video idr frames) = coalesceBy video idr frames := by
  obtain ⟨chosen, hout, hchoice⟩ := coalesceBy_eq video idr frames hvideo
  have hchosen : chosen.toList.filter video = chosen.toList ∧
      chosen.toList.filter (fun f => !video f) = [] := by
    cases chosen with
    | none => exact ⟨rfl, rfl⟩
    | some f =>
      have hf := (List.mem_filter.mp (hchoice.mem_filter hvideo rfl)).2
      simp [hf]
  -- what was put back is all the video there is
  have hvideos : (coalesceBy video idr frames).filter video = chosen.toList := by
    rw [hout, List.filter_append, List.filter_filter, hchosen.1]
    simp
  have hothers : (coalesceBy video idr frames).filter (fun f => !video f) = frames.filter fun f =>
      !video f := by
    rw [hout, List.filter_append, List.filter_filter, hchosen.2]
    simp
  have hfew : ((coalesceBy video idr frames).filter video).length ≤ 1 := by
    rw [hvideos]
    cases chosen <;> simp
  rw [coalesceBy_of_few hfew, hvideos, hothers, hout]

end Choice

/-! ## The loop -/

namespace Checked

/-- `coalesce_flv_batch`. `none` is the panic of `expect`. -/
def coalesceFlvBatch (frames : List MediaFrame) : Option (List MediaFrame) :=
  let (out, videoInBatch) := frames.foldl
    (fun (out, videoInBatch) f =>
      if isPlayableVideo f then (out, videoInBatch ++ [f]) else (out ++ [f], videoInBatch))
    ([], [])
  if videoInBatch.isEmpty then some out
  else
    let skipped := 1 < videoInBatch.length
    let chosen :=
      if skipped then some (videoInBatch.reverse.find? isPlayableIdr)
      else videoInBatch.head?.map some
    chosen.map fun
      | some v => out ++ [v]
      | none => out

theorem foldl_partition (frames out videos : List MediaFrame) :
    frames.foldl
      (fun (out, videoInBatch) f =>
        if isPlayableVideo f then (out, videoInBatch ++ [f]) else (out ++ [f], videoInBatch))
          (out, videos) =
      (out ++ frames.filter (fun f => !isPlayableVideo f),
          videos ++ frames.filter isPlayableVideo) := by
  induction frames generalizing out videos with
  | nil => simp
  | cons f frames ih =>
    rw [List.foldl_cons, List.filter_cons, List.filter_cons]
    cases isPlayableVideo f with
    | true =>
      refine (ih out (videos ++ [f])).trans ?_
      simp
    | false =>
      refine (ih (out ++ [f]) videos).trans ?_
      simp

/-- The loop never fails, and does what `coalesceFlvBatch` says. -/
theorem coalesceFlvBatch_eq (frames : List MediaFrame) :
    coalesceFlvBatch frames = some (VcpMediaServer.coalesceFlvBatch frames) := by
  rw [coalesceFlvBatch, foldl_partition, VcpMediaServer.coalesceFlvBatch, coalesceBy]
  rcases frames.filter isPlayableVideo with _ | ⟨f, _ | ⟨g, videos⟩⟩
  · simp
  · simp
  · have hskipped : 1 < ([] ++ f :: g :: videos).length := by simp
    dsimp only
    rw [if_neg (by simp), if_pos hskipped, List.nil_append, List.nil_append, Option.map_some]
    cases (f :: g :: videos).reverse.find? isPlayableIdr <;> simp

end Checked

/-- A batch is everything but playable video in its order, and behind it at most one frame of
playable video: the only one, else the last key frame. Coalesced once more, it is the same. -/
theorem coalesceFlvBatch_spec (frames : List MediaFrame) :
    ∃ chosen : Option MediaFrame,
      IsChoice isPlayableVideo isPlayableIdr frames chosen ∧
        Checked.coalesceFlvBatch frames =
          some (frames.filter (fun f => !isPlayableVideo f) ++ chosen.toList) ∧
        (Checked.coalesceFlvBatch frames).bind Checked.coalesceFlvBatch =
            Checked.coalesceFlvBatch frames := by
  have hvideo : ∀ f, isPlayableIdr f = true → isPlayableVideo f = true :=
    fun f hf => (Bool.and_eq_true_iff.mp hf).1
  obtain ⟨chosen, hout, hchoice⟩ := coalesceBy_eq isPlayableVideo isPlayableIdr frames hvideo
  refine ⟨chosen, hchoice, ?_, ?_⟩
  · rw [Checked.coalesceFlvBatch_eq, coalesceFlvBatch, hout]
  · rw [Checked.coalesceFlvBatch_eq, Option.bind_some, Checked.coalesceFlvBatch_eq,
      coalesceFlvBatch, coalesceFlvBatch, coalesceBy_coalesceBy frames hvideo]

end VcpMediaServer
