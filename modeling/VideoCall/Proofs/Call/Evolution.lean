import VideoCall.Proofs.Call.Reactions

/-!
# The gallery in a call

A call changes its gallery by the changes of galleries alone, and makes and releases URLs in no
other way, so what holds of every gallery that changes lead to holds of the gallery of every call.

## Main definitions

* `Call.Evolves` : the gallery comes out of that of a call by changes, and URLs follow it.

## Main results

* `Call.evolves_move` : every move changes the gallery by changes of galleries.
* `Call.evolves_run` : so does every history.
* `Call.Reachable.gallery` : the gallery of a call between two inputs is one that changes lead to.
-/

namespace VideoCall.Call

open Outcome

/-- The gallery that an outcome leads to comes out of that of a call by changes of galleries, and
what becomes of URLs on the way is what the changes do to them. -/
def Evolves (c : Call) (o : Outcome Call) : Prop :=
  ∃ changes, o.value.gallery = (c.gallery.run changes).value ∧
    Effect.urls o.effects = Effect.urls (c.gallery.run changes).effects

namespace Evolves

variable {c c' : Call} {es : List Effect}

/-- The gallery stays as it is. -/
theorem still (hg : c'.gallery = c.gallery) (hurls : Effect.urls es = []) : Evolves c ⟨c', es⟩ :=
  ⟨[], hg, hurls⟩

theorem of_change (change : Gallery.Change) (hg : c'.gallery = (c.gallery.apply change).value)
    (hurls : Effect.urls es = Effect.urls (c.gallery.apply change).effects) :
    Evolves c ⟨c', es⟩ := by
  refine ⟨[change], hg, hurls.trans ?_⟩
  exact congrArg Effect.urls (List.append_nil _).symm

theorem append {o o' : Outcome Call} (h : Evolves c o) (h' : Evolves o.value o') :
    Evolves c ⟨o'.value, o.effects ++ o'.effects⟩ := by
  obtain ⟨l, hl, hurls⟩ := h
  obtain ⟨l', hl', hurls'⟩ := h'
  rw [hl] at hl' hurls'
  refine ⟨l ++ l', hl'.trans (Gallery.value_run_append _ l l').symm, ?_⟩
  rw [Effect.urls_append, hurls, hurls', Gallery.effects_run_append, Effect.urls_append]

end Evolves

variable {c : Call} {o : Outcome Call}

/-- Every move changes the gallery of a call by changes of galleries. -/
theorem evolves_move (h : Move c o) : Evolves c o := by
  have haside : ∀ {es : List Effect}, (∀ e ∈ es, e.Within Effect.Part.asides) →
      Effect.urls es = [] := fun hes => Effect.urls_eq_nil hes (by decide)
  cases h with
  | pass h hes => exact .still h.gallery (haside hes)
  | connect _ _ _ => exact .still rfl rfl
  | phase _ _ hes => exact .still rfl (haside hes)
  | tearDown _ _ hes =>
    exact .of_change (.removePeer _) rfl ((Effect.urls_publish _ _).trans hes)
  | change change h _ _ hes =>
    exact .of_change change h.gallery ((Effect.urls_publish _ _).trans hes)
  | record _ _ _ _ _ hes =>
    have hurls := haside hes
    exact .still rfl ((Effect.urls_publish _ _).trans hurls)
  | stop _ _ _ hes =>
    have hurls := haside hes
    exact .still rfl ((Effect.urls_publish _ _).trans hurls)
  | release _ _ _ _ _ hgallery _ _ _ hes =>
    exact .of_change .reset hgallery ((Effect.urls_publish _ _).trans hes)

theorem Moves.evolves (h : Moves c o) : Evolves c o := by
  induction h with
  | none c => exact .still rfl rfl
  | cons h _ ih => exact (evolves_move h).append ih

/-- Every history changes the gallery by changes of galleries. -/
theorem evolves_run (c : Call) (moments : List Moment) : Evolves c (c.run moments) :=
  (c.moves_run moments).evolves

/-- The gallery of a call between two inputs is one that changes lead to. -/
theorem Reachable.gallery (h : c.Reachable) : c.gallery.Reachable := by
  obtain ⟨s, room, user, urls, moments, rfl⟩ := h
  obtain ⟨changes, hg, -⟩ := evolves_run (fresh s room user urls .none) moments
  exact ⟨urls, changes, hg⟩

end VideoCall.Call
