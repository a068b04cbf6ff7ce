import Picoalloc.Foundation.CheckedMachine

/-!
A machine, its specification and the clients of both. The specification is a transition
relation over abstract states, which leaves outputs and next states open that the machine
decides. A client chooses its steps by the outputs that it has seen, and is careful when it
keeps to the preconditions of the specification whatever the outputs are.
-/

namespace Picoalloc.CheckedMachine

variable {State Spec Label Output : Type}

abbrev Client (Label Output : Type) := List (Label × Output) → Option Label

inductive Plays (spec : Label → Output → Spec → Spec → Prop) (client : Client Label Output) :
    List (Label × Output) → Spec → Spec → Prop where
  | nil {a : Spec} : Plays spec client [] a a
  | snoc {history : List (Label × Output)} {label : Label} {output : Output} {a a' a'' : Spec}
      (earlier : Plays spec client history a a') (next : client history = some label)
      (here : spec label output a' a'') : Plays spec client (history ++ [(label, output)]) a a''

/-- In every run of the specification the client keeps to what is permitted. -/
def Careful (spec : Label → Output → Spec → Spec → Prop) (permitted : Label → Spec → Prop)
    (client : Client Label Output) (a : Spec) : Prop :=
  ∀ history a' label, Plays spec client history a a' → client history = some label → permitted label a'

def play (step : Label → State → Checked (Output × State)) (client : Client Label Output) :
    Nat → List (Label × Output) → State → Checked (List (Label × Output) × State)
  | 0, history, s => .ok (history, s)
  | steps + 1, history, s =>
      match client history with
      | none => .ok (history, s)
      | some label => do
          let (output, s') ← step label s
          play step client steps (history ++ [(label, output)]) s'

/-- Permitted steps go through, and are steps of the specification between related states. -/
structure Refines (related : State → Spec → Prop) (permitted : Label → Spec → Prop)
    (step : Label → State → Checked (Output × State))
    (spec : Label → Output → Spec → Spec → Prop) : Prop where
  forth : ∀ label s a, related s a → permitted label a →
    ∃ output s' a', step label s = .ok (output, s') ∧ spec label output a a' ∧ related s' a'

variable {related : State → Spec → Prop} {permitted : Label → Spec → Prop}
  {step : Label → State → Checked (Output × State)} {spec : Label → Output → Spec → Spec → Prop}
  {client : Client Label Output} {s : State} {a a₁ : Spec} {history : List (Label × Output)}

theorem Plays.last {label : Label} {output : Output}
    (played : Plays spec client (history ++ [(label, output)]) a a₁) :
    ∃ a', Plays spec client history a a' ∧ client history = some label ∧ spec label output a' a₁ := by
  generalize whole : history ++ [(label, output)] = steps at played
  cases played with
  | nil => exact absurd whole (by simp)
  | snoc earlier next here =>
      obtain ⟨rfl, last⟩ := List.append_inj' whole rfl
      cases last
      exact ⟨_, earlier, next, here⟩

theorem Plays.start (played : Plays spec client [] a a₁) : a₁ = a := by
  generalize whole : ([] : List (Label × Output)) = steps at played
  cases played with
  | nil => rfl
  | snoc => exact absurd whole (by simp)

theorem Refines.continue (refines : Refines related permitted step spec)
    (careful : Careful spec permitted client a) (steps : Nat) (played : Plays spec client history a a₁)
    (here : related s a₁) :
    ∃ history' s' a', play step client steps history s = .ok (history', s') ∧
      Plays spec client history' a a' ∧ related s' a' := by
  induction steps generalizing history s a₁ with
  | zero => exact ⟨history, s, a₁, rfl, played, here⟩
  | succ steps ih =>
      cases chosen : client history with
      | none => exact ⟨history, s, a₁, by rw [play, chosen], played, here⟩
      | some label =>
          obtain ⟨output, s₁, a₂, stepped, allowed, next⟩ :=
            refines.forth label s a₁ here (careful history a₁ label played chosen)
          obtain ⟨history', s', a', ran, rest, ends⟩ := ih (played.snoc chosen allowed) next
          refine ⟨history', s', a', ?_, rest, ends⟩
          simp only [play, chosen, stepped]
          exact ran

/-- The refinement rule: what a careful client sees of the machine is a run of the
specification. -/
theorem Refines.play (refines : Refines related permitted step spec)
    (careful : Careful spec permitted client a) (start : related s a) (steps : Nat) :
    ∃ history s' a', CheckedMachine.play step client steps [] s = .ok (history, s') ∧
      Plays spec client history a a' ∧ related s' a' :=
  refines.continue careful steps .nil start

end Picoalloc.CheckedMachine
