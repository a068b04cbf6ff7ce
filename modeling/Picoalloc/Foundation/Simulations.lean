import Picoalloc.Foundation.CheckedMachine

/-!
Two runs beside each other. Some steps can be observed and have to be taken by both
machines, with the same observation; the others are silent and each machine takes its
own, as many as it likes and where it likes.
-/

namespace Picoalloc.CheckedMachine

variable {State State' Label Observation : Type}

section Permitting

variable {permitted permitted' : Label → State → Prop} {labels : List Label} {s : State}
  {step : Label → State → Checked (Observation × State)}

theorem PermitsList.and (always : ∀ label ∈ labels, ∀ s, permitted' label s)
    (allowed : PermitsList permitted step labels s) :
    PermitsList (fun label s => permitted label s ∧ permitted' label s) step labels s := by
  induction labels generalizing s with
  | nil => trivial
  | cons label rest ih =>
      refine ⟨⟨allowed.1, always label List.mem_cons_self s⟩, fun output s' stepped => ?_⟩
      exact ih (fun other member => always other (List.mem_cons_of_mem label member))
        (allowed.2 output s' stepped)

end Permitting

/-- A relation of two machines that silent steps of either keep, and that others keep
when both take them, with the same observation. -/
structure Simulates (silent : Label → Bool) (related : State → State' → Prop)
    (permitted : Label → State → Prop) (permitted' : Label → State' → Prop)
    (step : Label → State → Checked (Option Observation × State))
    (step' : Label → State' → Checked (Option Observation × State')) : Prop where
  left : ∀ label s t, silent label = true → related s t → permitted label s →
    ∃ s', step label s = .ok (none, s') ∧ related s' t
  right : ∀ label s t, silent label = true → related s t → permitted' label t →
    ∃ t', step' label t = .ok (none, t') ∧ related s t'
  both : ∀ label s t, silent label = false → related s t → permitted label s → permitted' label t →
    ∃ observation s' t', step label s = .ok (some observation, s') ∧
      step' label t = .ok (some observation, t') ∧ related s' t'

section Simulating

variable {silent : Label → Bool} {related : State → State' → Prop}
  {permitted : Label → State → Prop} {permitted' : Label → State' → Prop}
  {step : Label → State → Checked (Option Observation × State)}
  {step' : Label → State' → Checked (Option Observation × State')}
  {labels labels' : List Label} {s : State} {t : State'}

def RunAlike (related : State → State' → Prop)
    (step : Label → State → Checked (Option Observation × State))
    (step' : Label → State' → Checked (Option Observation × State'))
    (labels labels' : List Label) (s : State) (t : State') : Prop :=
  ∃ outputs s' outputs' t', runList step labels s = .ok (outputs, s') ∧
    runList step' labels' t = .ok (outputs', t') ∧
    outputs.reduceOption = outputs'.reduceOption ∧ related s' t'

theorem RunAlike.left {label : Label} {s₁ : State} (stepped : step label s = .ok (none, s₁))
    (rest : RunAlike related step step' labels labels' s₁ t) :
    RunAlike related step step' (label :: labels) labels' s t := by
  obtain ⟨outputs, s', outputs', t', ran, ran', same, ends⟩ := rest
  exact ⟨_, s', outputs', t', runList_cons stepped ran, ran', same, ends⟩

theorem RunAlike.right {label : Label} {t₁ : State'} (stepped : step' label t = .ok (none, t₁))
    (rest : RunAlike related step step' labels labels' s t₁) :
    RunAlike related step step' labels (label :: labels') s t := by
  obtain ⟨outputs, s', outputs', t', ran, ran', same, ends⟩ := rest
  exact ⟨outputs, s', _, t', ran, runList_cons stepped ran', same, ends⟩

theorem RunAlike.both {label : Label} {observation : Observation} {s₁ : State} {t₁ : State'}
    (stepped : step label s = .ok (some observation, s₁))
    (stepped' : step' label t = .ok (some observation, t₁))
    (rest : RunAlike related step step' labels labels' s₁ t₁) :
    RunAlike related step step' (label :: labels) (label :: labels') s t := by
  obtain ⟨outputs, s', outputs', t', ran, ran', same, ends⟩ := rest
  refine ⟨_, s', _, t', runList_cons stepped ran, runList_cons stepped' ran', ?_, ends⟩
  simp [List.reduceOption_cons_of_some, same]

theorem Simulates.finish (simulates : Simulates silent related permitted permitted' step step')
    (quiet : labels'.filter (fun label => !silent label) = []) (start : related s t)
    (allowed : PermitsList permitted' step' labels' t) :
    RunAlike related step step' [] labels' s t := by
  induction labels' generalizing t with
  | nil => exact ⟨[], s, [], t, rfl, rfl, rfl, start⟩
  | cons label rest ih =>
      have hidden : silent label = true := by
        have none := List.filter_eq_nil_iff.mp quiet label List.mem_cons_self
        simpa using none
      rw [List.filter_cons_of_neg (by simp [hidden])] at quiet
      obtain ⟨t₁, stepped, start₁⟩ := simulates.right label s t hidden start allowed.1
      exact .right stepped (ih quiet start₁ (allowed.2 _ _ stepped))

/-- The two-run rule: lists of steps that differ in silent ones run alike. The first list is
followed step by step, and the silent steps of the second are taken where they stand. -/
theorem Simulates.run (simulates : Simulates silent related permitted permitted' step step')
    (same : labels.filter (fun label => !silent label) = labels'.filter fun label => !silent label)
    (start : related s t) (allowed : PermitsList permitted step labels s)
    (allowed' : PermitsList permitted' step' labels' t) :
    RunAlike related step step' labels labels' s t := by
  induction labels generalizing labels' s t with
  | nil => exact simulates.finish same.symm start allowed'
  | cons label rest ih =>
      by_cases hidden : silent label = true
      · rw [List.filter_cons_of_neg (by simp [hidden])] at same
        obtain ⟨s₁, stepped, start₁⟩ := simulates.left label s t hidden start allowed.1
        exact .left stepped (ih same start₁ (allowed.2 _ _ stepped) allowed')
      rw [List.filter_cons_of_pos (by simpa using hidden)] at same
      induction labels' generalizing t with
      | nil => cases same
      | cons label' rest' ih' =>
          by_cases hidden' : silent label' = true
          · rw [List.filter_cons_of_neg (by simp [hidden'])] at same
            obtain ⟨t₁, stepped, start₁⟩ := simulates.right label' s t hidden' start allowed'.1
            exact .right stepped (ih' same start₁ (allowed'.2 _ _ stepped))
          · rw [List.filter_cons_of_pos (by simpa using hidden')] at same
            obtain ⟨rfl, tail⟩ := List.cons.inj same
            obtain ⟨observation, s₁, t₁, stepped, stepped', start₁⟩ :=
              simulates.both label s t (by simpa using hidden) start allowed.1 allowed'.1
            exact .both stepped stepped'
              (ih tail start₁ (allowed.2 _ _ stepped) (allowed'.2 _ _ stepped'))

end Simulating

end Picoalloc.CheckedMachine
