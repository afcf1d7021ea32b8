import VideoCall.Effect

/-!
# What outcomes emit and lead to

Two ways to speak of the effects of a step that is put together from smaller ones. An outcome emits
effects of a kind if each of its effects is of that kind. It leads from what is known of all effects
so far to what is known of them, and of its value, afterwards. Both pass from the parts to the
whole.

## Main definitions

* `Outcome.Emits` : every effect is of a kind.
* `Outcome.Leads` : what is known before, and what is known after.

## Main results

* `Outcome.Emits.bind`, `Outcome.Emits.forEach` : what the parts emit, the whole emits.
* `Outcome.Leads.bind`, `Outcome.Leads.forEach` : what the parts lead to, the whole leads to.
* `Outcome.forEach_of_pure` : steps that leave a state alone do so in a row.
-/

namespace VideoCall.Outcome

variable {α β σ ι : Type}

/-- Steps that leave a state alone do so in a row. -/
theorem forEach_of_pure {step : σ → ι → Outcome σ} {is : List ι} {s : σ}
    (h : ∀ i ∈ is, step s i = pure s) : forEach step is s = pure s := by
  induction is with
  | nil => rfl
  | cons i is ih =>
    rw [forEach_cons, h i List.mem_cons_self]
    exact ih fun j hj => h j (List.mem_cons_of_mem _ hj)

/-- Every effect of the outcome is of a kind. -/
def Emits (p : Effect → Prop) (o : Outcome α) : Prop := ∀ e ∈ o.effects, p e

namespace Emits

variable {p q : Effect → Prop} {o : Outcome α} {f : α → Outcome β}

theorem pure (a : α) : Emits p (pure a) := fun _ he => absurd he List.not_mem_nil

theorem bind (h : Emits p o) (hf : Emits p (f o.value)) : Emits p (o >>= f) := fun e he =>
  (List.mem_append.1 he).elim (h e) (hf e)

theorem map (h : Emits p o) (f : α → β) : Emits p (f <$> o) := h.bind (.pure _)

theorem emit {e : Effect} (he : p e) : Emits p (emit e) := fun _ h => List.mem_singleton.1 h ▸ he

theorem emitAll {es : List Effect} (h : ∀ e ∈ es, p e) : Emits p (emitAll es) := h

theorem when {o : Outcome Unit} (h : Emits p o) (b : Bool) : Emits p (when b o) := by
  cases b
  · exact .pure ()
  · exact h

theorem forSome {step : α → Outcome Unit} (h : ∀ a, Emits p (step a)) (a : Option α) :
    Emits p (forSome a step) := by
  cases a
  · exact .pure ()
  · exact h _

theorem forEach {step : σ → ι → Outcome σ} {is : List ι} (h : ∀ s, ∀ i ∈ is, Emits p (step s i))
    (s : σ) :
    Emits p (forEach step is s) := by
  induction is generalizing s with
  | nil => exact .pure s
  | cons i is ih =>
    exact (h s i List.mem_cons_self).bind (ih (fun s j hj => h s j (List.mem_cons_of_mem _ hj)) _)

/-- Steps in a row emit effects of a kind, if each does so in the states that the steps before it
lead to. -/
theorem forEach_of_keeps {inv : σ → Prop} {step : σ → ι → Outcome σ} {is : List ι} {s : σ}
    (hs : inv s) (h : ∀ s, inv s → ∀ i ∈ is, inv (step s i).value ∧ Emits p (step s i)) :
    Emits p (Outcome.forEach step is s) := by
  induction is generalizing s with
  | nil => exact .pure s
  | cons i is ih =>
    obtain ⟨hkeeps, hi⟩ := h s hs i List.mem_cons_self
    exact hi.bind (ih hkeeps fun s hs j hj => h s hs j (List.mem_cons_of_mem _ hj))

theorem mono (h : Emits p o) (hpq : ∀ e, p e → q e) : Emits q o := fun e he => hpq e (h e he)

end Emits

/-- If the effects so far are as `p` says, then afterwards the value and all effects are as `q`
says. -/
def Leads (p : List Effect → Prop) (o : Outcome α) (q : α → List Effect → Prop) : Prop :=
  ∀ es, p es → q o.value (es ++ o.effects)

namespace Leads

variable {p : List Effect → Prop} {q : α → List Effect → Prop} {r : β → List Effect → Prop}
  {o : Outcome α}

theorem pure {a : α} (h : ∀ es, p es → q a es) : Leads p (pure a) q := fun es hp => by
  rw [effects_pure, List.append_nil]
  exact h es hp

theorem bind {f : α → Outcome β} (h : Leads p o q) (hf : Leads (q o.value) (f o.value) r) :
    Leads p (o >>= f) r := fun es hp => by
  rw [effects_bind, ← List.append_assoc]
  exact hf _ (h es hp)

/-- What every step keeps, a run keeps. -/
theorem forEach {q : σ → List Effect → Prop} {step : σ → ι → Outcome σ}
    (h : ∀ s i, Leads (q s) (step s i) q) (is : List ι) (s : σ) :
    Leads (q s) (forEach step is s) q := by
  induction is generalizing s with
  | nil => exact .pure fun _ hs => hs
  | cons i is ih => exact (h s i).bind (ih _)

end Leads

end VideoCall.Outcome
