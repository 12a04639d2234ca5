import Mathlib.Data.List.Basic

/-!
# Labelled Machines

A system that takes one labelled step at a time. The label carries every
choice the step leaves open, which thread moves and what its environment
answers, so a step is a partial function and an interleaving is a list of
labels. `none` is a step that is not enabled.

`exec` runs a list of labels. `Along` says that every label of a run was
taken in a state satisfying a side condition, which is how a property of all
runs is stated for the runs whose steps meet a condition. `exec_keeps` is the
one induction: what each such step preserves holds wherever the run ends.

## Main definitions

* `exec`: The state after a list of labels.
* `Along`: Every label of a run meets a condition where it is taken.
* `Throughout`: Every state on the way of a run has a property.

## Theorems

* `along_of_forall`, `along_label_iff`, `along_and`, `along_imp`: Conditions along
  a run.
* `exec_append`: A run splits at any point.
* `exec_keeps`: An invariant of the steps that meet a condition is an
  invariant of the runs whose steps all meet it.
* `exec_trapped`: A run that breaks the condition ends where its breaking step
  led, if there is no way out.
* `throughout_of_along`: The same for every state on the way.
* `throughout_iff_along`: A property that exactly the steps meeting a condition
  keep holds throughout exactly the runs whose steps all meet it.
-/

namespace NetProbe

namespace Machine

variable {σ α : Type}

/-- Run a list of labels, or `none` if one of them is not enabled. -/
def exec (step : σ → α → Option σ) : σ → List α → Option σ
  | s, [] => some s
  | s, a :: as => (step s a).bind (fun s' => exec step s' as)

/-- Every label is taken in a state that meets the condition. -/
def Along (step : σ → α → Option σ) (C : σ → α → Prop) : σ → List α → Prop
  | _, [] => True
  | s, a :: as => C s a ∧ ∀ s', step s a = some s' → Along step C s' as

/-- One enabled step at the front of a run. -/
theorem exec_cons {step : σ → α → Option σ} {s s' : σ} {a : α} {as : List α}
    (h : step s a = some s') : exec step s (a :: as) = exec step s' as := by
  simp only [exec, h, Option.bind_some]

theorem along_cons_iff (step : σ → α → Option σ) (C : σ → α → Prop) (s : σ) (a : α)
    (as : List α) :
    Along step C s (a :: as) ↔ C s a ∧ ∀ s' ∈ step s a, Along step C s' as := Iff.rfl

theorem along_true (step : σ → α → Option σ) (s : σ) (as : List α) :
    Along step (fun _ _ => True) s as := by
  induction as generalizing s with
  | nil => trivial
  | cons a as ih => exact ⟨trivial, fun s' _ => ih s'⟩

/-- A condition on the labels alone is one on the list of labels. -/
theorem along_of_forall (step : σ → α → Option σ) {Q : α → Prop} (s : σ) {as : List α}
    (h : ∀ a ∈ as, Q a) : Along step (fun _ a => Q a) s as := by
  induction as generalizing s with
  | nil => trivial
  | cons a as ih =>
      exact ⟨h a List.mem_cons_self,
        fun s' _ => ih s' (fun b hb => h b (List.mem_cons_of_mem a hb))⟩

theorem along_and {step : σ → α → Option σ} {C D : σ → α → Prop} {s : σ} {as : List α}
    (hC : Along step C s as) (hD : Along step D s as) :
    Along step (fun s a => C s a ∧ D s a) s as := by
  induction as generalizing s with
  | nil => trivial
  | cons a as ih =>
      exact ⟨⟨hC.1, hD.1⟩, fun s' hs' => ih (hC.2 s' hs') (hD.2 s' hs')⟩

/-- In a run that goes through, a condition on the labels alone is exactly that. -/
theorem along_label_iff {step : σ → α → Option σ} {Q : α → Prop} {s t : σ} {as : List α}
    (h : exec step s as = some t) : Along step (fun _ a => Q a) s as ↔ ∀ a ∈ as, Q a := by
  refine ⟨fun halong => ?_, along_of_forall step s⟩
  induction as generalizing s with
  | nil => exact fun a ha => absurd ha List.not_mem_nil
  | cons a as ih =>
      obtain ⟨s', hstep, hrest⟩ := Option.bind_eq_some_iff.mp h
      exact List.forall_mem_cons.mpr ⟨halong.1, ih hrest (halong.2 s' hstep)⟩

/-- A condition under an assumption that says nothing about the run. -/
theorem along_imp {step : σ → α → Option σ} {C : σ → α → Prop} {P : Prop} {s : σ} {as : List α}
    (h : P → Along step C s as) : Along step (fun s a => P → C s a) s as := by
  induction as generalizing s with
  | nil => trivial
  | cons a as ih => exact ⟨fun hP => (h hP).1, fun s' hs' => ih (fun hP => (h hP).2 s' hs')⟩

/-- A condition that can be tested can be tested along a run. -/
instance decidableAlong (step : σ → α → Option σ) (C : σ → α → Prop)
    [∀ s a, Decidable (C s a)] : ∀ (s : σ) (as : List α), Decidable (Along step C s as)
  | _, [] => isTrue trivial
  | s, a :: as =>
      -- A step that is not enabled ends the run, and with it the test.
      match hstep : step s a with
      | none => decidable_of_iff (C s a) (by
          rw [along_cons_iff, hstep]
          exact ⟨fun h => ⟨h, fun _ hs => nomatch hs⟩, fun h => h.1⟩)
      | some s' =>
          have := decidableAlong step C s' as
          decidable_of_iff (C s a ∧ Along step C s' as) (by
            rw [along_cons_iff, hstep]
            exact ⟨fun h => ⟨h.1, fun _ hs => Option.some.inj hs ▸ h.2⟩,
              fun h => ⟨h.1, h.2 s' rfl⟩⟩)

theorem exec_append (step : σ → α → Option σ) (s t : σ) (as bs : List α)
    (h : exec step s as = some t) : exec step s (as ++ bs) = exec step t bs := by
  induction as generalizing s with
  | nil =>
      simp only [exec, Option.some.injEq] at h
      rw [h, List.nil_append]
  | cons a as ih =>
      simp only [List.cons_append, exec] at h ⊢
      rcases hstep : step s a with _ | s'
      · rw [hstep] at h
        exact absurd h (by simp only [Option.bind_none, reduceCtorEq, not_false_eq_true])
      · rw [hstep, Option.bind_some] at h
        exact ih s' h

theorem exec_keeps (step : σ → α → Option σ) (C : σ → α → Prop) (P : σ → Prop)
    (hstep : ∀ s a s', P s → C s a → step s a = some s' → P s') :
    ∀ (as : List α) (s t : σ), P s → Along step C s as → exec step s as = some t → P t := by
  intro as
  -- Induction on the labels; the invariant moves on with each step.
  induction as with
  | nil =>
      intro s t hs _ h
      simp only [exec, Option.some.injEq] at h
      rw [← h]
      exact hs
  | cons a as ih =>
      intro s t hs hC h
      simp only [exec] at h
      rcases ha : step s a with _ | s'
      · rw [ha] at h
        exact absurd h (by simp only [Option.bind_none, reduceCtorEq, not_false_eq_true])
      · rw [ha, Option.bind_some] at h
        exact ih s' t (hstep s a s' hs hC.1 ha) (hC.2 s' ha) h

/-- The converse of `exec_keeps`: if every step that breaks the condition leads
    to a trap, a run that breaks it anywhere ends in the trap. -/
theorem exec_trapped (step : σ → α → Option σ) (C : σ → α → Prop) (P Q : σ → Prop)
    (hstep : ∀ s a s', P s → step s a = some s' → P s')
    (hbreak : ∀ s a s', P s → ¬ C s a → step s a = some s' → Q s')
    (htrap : ∀ s a s', P s → Q s → step s a = some s' → Q s') :
    ∀ (as : List α) (s t : σ), P s → ¬ Along step C s as → exec step s as = some t → Q t := by
  -- Once in the trap, the rest of the run stays there.
  have hstays : ∀ (as : List α) (s t : σ), P s ∧ Q s → exec step s as = some t → P t ∧ Q t := by
    intro as s t hs h
    exact exec_keeps step (fun _ _ => True) (fun s => P s ∧ Q s)
      (fun s a s' hs _ ha => ⟨hstep s a s' hs.1 ha, htrap s a s' hs.1 hs.2 ha⟩) as s t hs
      (along_true step s as) h
  intro as
  induction as with
  | nil => intro s t _ halong _; exact absurd trivial halong
  | cons a as ih =>
      intro s t hs halong h
      simp only [exec] at h
      rcases ha : step s a with _ | s'
      · rw [ha] at h
        exact absurd h (by simp only [Option.bind_none, reduceCtorEq, not_false_eq_true])
      rw [ha, Option.bind_some] at h
      -- The first step that breaks the condition is this one or a later one.
      by_cases hC : C s a
      · refine ih s' t (hstep s a s' hs ha) (fun hrest => halong ⟨hC, ?_⟩) h
        intro s'' hs''
        rw [ha, Option.some.injEq] at hs''
        rw [← hs'']
        exact hrest
      · exact (hstays as s' t ⟨hstep s a s' hs ha, hbreak s a s' hs hC ha⟩ h).2

/-- Every state on the way of a run, its first and its last included. -/
def Throughout (step : σ → α → Option σ) (P : σ → Prop) (s : σ) (as : List α) : Prop :=
  ∀ (start : List α), start <+: as → ∀ t, exec step s start = some t → P t

theorem throughout_nil {step : σ → α → Option σ} {P : σ → Prop} {s : σ} (hs : P s) :
    Throughout step P s [] := by
  intro start hstart t ht
  obtain rfl := List.prefix_nil.mp hstart
  exact Option.some.inj ht ▸ hs

theorem throughout_cons {step : σ → α → Option σ} {P : σ → Prop} {s s' : σ} {a : α} {as : List α}
    (h : step s a = some s') :
    Throughout step P s (a :: as) ↔ P s ∧ Throughout step P s' as := by
  constructor
  · intro hall
    refine ⟨hall [] List.nil_prefix s rfl, fun start hstart t ht => ?_⟩
    exact hall (a :: start) (List.cons_prefix_cons.mpr ⟨rfl, hstart⟩) t ((exec_cons h).trans ht)
  · rintro ⟨hs, hrest⟩ start hstart t ht
    rcases start with _ | ⟨b, start⟩
    · exact Option.some.inj ht ▸ hs
    · obtain ⟨rfl, hrun⟩ := List.cons_prefix_cons.mp hstart
      exact hrest start hrun t ((exec_cons h).symm.trans ht)

/-- What the steps that meet a condition preserve holds throughout the runs whose
    steps all meet it. -/
theorem throughout_of_along (step : σ → α → Option σ) (C : σ → α → Prop) (P : σ → Prop)
    (hstep : ∀ s a s', P s → C s a → step s a = some s' → P s') :
    ∀ (as : List α) (s : σ), P s → Along step C s as → Throughout step P s as := by
  intro as
  induction as with
  | nil =>
      intro s hs _
      exact throughout_nil hs
  | cons a as ih =>
      intro s hs hC start hstart t ht
      cases start with
      | nil => exact Option.some.inj ht ▸ hs
      | cons b start =>
          obtain ⟨rfl, hrun⟩ := List.cons_prefix_cons.mp hstart
          obtain ⟨s', ha, hrest⟩ := Option.bind_eq_some_iff.mp ht
          exact ih s' (hstep s b s' hs hC.1 ha) (hC.2 s' ha) start hrun t hrest

/-- A property that a step keeps exactly if it meets a condition. `I` is what
    the steps that meet it keep besides. -/
theorem throughout_iff_along (step : σ → α → Option σ) (C : σ → α → Prop) (I P : σ → Prop)
    (hkeep : ∀ s a s', I s → P s → C s a → step s a = some s' → I s')
    (hiff : ∀ s a s', I s → P s → step s a = some s' → (P s' ↔ C s a)) :
    ∀ (as : List α) (s t : σ), I s → P s → exec step s as = some t →
      (Throughout step P s as ↔ Along step C s as) := by
  intro as
  induction as with
  | nil =>
      intro s t _ hs _
      exact ⟨fun _ => trivial, fun _ => throughout_nil hs⟩
  | cons a as ih =>
      intro s t hI hs h
      obtain ⟨s', hstep, hrest⟩ := Option.bind_eq_some_iff.mp h
      rw [throughout_cons hstep, along_cons_iff]
      constructor
      · rintro ⟨-, hall⟩
        have hC := (hiff s a s' hI hs hstep).mp (hall [] List.nil_prefix s' rfl)
        refine ⟨hC, fun s'' hs'' => ?_⟩
        obtain rfl : s' = s'' := Option.some.inj (hstep.symm.trans hs'')
        exact (ih s' t (hkeep s a s' hI hs hC hstep)
          (hall [] List.nil_prefix s' rfl) hrest).mp hall
      · rintro ⟨hC, halong⟩
        have hs' := (hiff s a s' hI hs hstep).mpr hC
        exact ⟨hs, (ih s' t (hkeep s a s' hI hs hC hstep) hs' hrest).mpr (halong s' hstep)⟩

end Machine

end NetProbe
