import NetProbe.Lib.Machine

/-!
# Machines that Follow Machines

A machine that is another one with something around it: seen from inside, each
of its steps is one step of the inner machine, or none at all. `Follows` says
so for a view of the states and an echo of the labels, among the states of an
invariant. A run then has a run of the inner machine in it, with the labels
that have an echo, and what is known of the inner machine's runs holds of the
view.

Where the labels carry data that the states forget, an invariant may speak of
the states and of what the labels so far have recorded. `exec_records` is the
induction for such an invariant.

## Main definitions

* `Follows`: Every step, seen through a view, is a step of another machine or
  none.

## Theorems

* `exec_follows`: The run of the inner machine inside a run.
* `along_follows`: Conditions along the run are conditions along the inner one.
* `exec_records`: An invariant of the states and the records of a run.
-/

namespace NetProbe

namespace Machine

variable {σ τ α β : Type}

/-- Among the states that satisfy the invariant, a step whose label has an echo
    is a step of the other machine, and any other step leaves the view as it
    is. -/
structure Follows (step : σ → α → Option σ) (inner : τ → β → Option τ) (Inv : σ → Prop)
    (view : σ → τ) (echo : α → Option β) : Prop where
  keeps : ∀ {s s' : σ} {a : α}, Inv s → step s a = some s' → Inv s'
  moves : ∀ {s s' : σ} {a : α} {b : β}, Inv s → step s a = some s' → echo a = some b →
    inner (view s) b = some (view s')
  rests : ∀ {s s' : σ} {a : α}, Inv s → step s a = some s' → echo a = none → view s' = view s

theorem exec_cons_iff {step : σ → α → Option σ} {s t : σ} {a : α} {as : List α} :
    exec step s (a :: as) = some t ↔ ∃ s', step s a = some s' ∧ exec step s' as = some t := by
  simp only [exec, Option.bind_eq_some_iff]

/-- The labels with an echo, taken one after the other, are a run of the inner
    machine between the views. -/
theorem exec_follows {step : σ → α → Option σ} {inner : τ → β → Option τ} {Inv : σ → Prop}
    {view : σ → τ} {echo : α → Option β} (hf : Follows step inner Inv view echo) :
    ∀ (as : List α) (s t : σ), Inv s → exec step s as = some t →
      exec inner (view s) (as.filterMap echo) = some (view t) := by
  intro as
  induction as with
  | nil =>
      intro s t _ h
      rw [← Option.some.inj h]
      rfl
  | cons a as ih =>
      intro s t hs h
      obtain ⟨s', hstep, hrest⟩ := exec_cons_iff.mp h
      have hrun := ih s' t (hf.keeps hs hstep) hrest
      rcases hecho : echo a with _ | b
      · rw [List.filterMap_cons_none hecho, ← hf.rests hs hstep hecho]
        exact hrun
      · rw [List.filterMap_cons_some hecho, exec_cons (hf.moves hs hstep hecho)]
        exact hrun

theorem along_follows {step : σ → α → Option σ} {inner : τ → β → Option τ} {Inv : σ → Prop}
    {view : σ → τ} {echo : α → Option β} (hf : Follows step inner Inv view echo)
    {C : σ → α → Prop} {D : τ → β → Prop}
    (hC : ∀ {s : σ} {a : α} {b : β}, C s a → echo a = some b → D (view s) b) :
    ∀ (as : List α) (s t : σ), Inv s → exec step s as = some t → Along step C s as →
      Along inner D (view s) (as.filterMap echo) := by
  intro as
  induction as with
  | nil => exact fun _ _ _ _ _ => trivial
  | cons a as ih =>
      intro s t hs h halong
      obtain ⟨s', hstep, hrest⟩ := exec_cons_iff.mp h
      have hrun := ih s' t (hf.keeps hs hstep) hrest (halong.2 s' hstep)
      rcases hecho : echo a with _ | b
      · rw [List.filterMap_cons_none hecho, ← hf.rests hs hstep hecho]
        exact hrun
      · rw [List.filterMap_cons_some hecho]
        refine ⟨hC halong.1 hecho, fun u hu => ?_⟩
        rw [hf.moves hs hstep hecho, Option.some.injEq] at hu
        rw [← hu]
        exact hrun

/-- What the steps that meet a condition preserve, with what their labels record
    added to the records, holds of the records of a whole run. -/
theorem exec_records (step : σ → α → Option σ) (C : σ → α → Prop) (record : α → List β)
    (P : List β → σ → Prop)
    (hstep : ∀ l s a s', P l s → C s a → step s a = some s' → P (l ++ record a) s') :
    ∀ (as : List α) (l : List β) (s t : σ), P l s → Along step C s as →
      exec step s as = some t → P (l ++ as.flatMap record) t := by
  intro as
  induction as with
  | nil =>
      intro l s t hs _ h
      rw [← Option.some.inj h, List.flatMap_nil, List.append_nil]
      exact hs
  | cons a as ih =>
      intro l s t hs hC h
      obtain ⟨s', ha, hrest⟩ := exec_cons_iff.mp h
      rw [List.flatMap_cons, ← List.append_assoc]
      exact ih (l ++ record a) s' t (hstep l s a s' hs hC.1 ha) (hC.2 s' ha) hrest

end Machine

end NetProbe
