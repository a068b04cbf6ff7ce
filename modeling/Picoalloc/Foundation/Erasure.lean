import Picoalloc.Foundation.Refinements

/-!
Checks that can be left out. A computation erases to another one that does the same
wherever the first ends without a fault. The instances follow the structure of the two
computations, so that instance search compares whole functions.
-/

namespace Picoalloc.CheckedMachine

variable {S S' α β : Type}

/-- A value that another one agrees with unless it is a fault. -/
class Agrees (value value' : Checked α) : Prop where
  agrees : ∀ a, value = .ok a → value' = .ok a

/-- A computation that another one follows, on a view of the state, until it faults. -/
class Erases (view : S → S') (run : Exec S α) (run' : Exec S' α) : Prop where
  erases : ∀ s a s', run s = .ok (a, s') → run' (view s) = .ok (a, view s')

section Values

variable (checks : Bool) (bits x y amount width : Nat)

instance agrees_self (value : Checked α) : Agrees value value := ⟨fun _ same => same⟩

instance agrees_bind {value value' : Checked α} {next next' : α → Checked β}
    [here : Agrees value value'] [later : ∀ a, Agrees (next a) (next' a)] :
    Agrees (value >>= next) (value' >>= next') where
  agrees b ran := by
    obtain ⟨a, began, ran⟩ := result_done ran
    rw [here.agrees a began]
    exact (later a).agrees b ran

instance agrees_ite {condition : Prop} [Decidable condition] {yes yes' no no' : Checked α}
    [whenYes : Agrees yes yes'] [whenNo : Agrees no no'] :
    Agrees (if condition then yes else no) (if condition then yes' else no') := by
  split
  · exact whenYes
  · exact whenNo

instance overflow_agrees (wrapped : Nat) :
    Agrees (overflow checks wrapped) (overflow false wrapped) where
  agrees a ran := by
    cases checks
    · exact ran
    · cases ran

instance add_agrees : Agrees (add checks bits x y) (add false bits x y) := by
  unfold add
  infer_instance

instance sub_agrees : Agrees (sub checks bits x y) (sub false bits x y) := by
  unfold sub
  infer_instance

instance shiftLeft_agrees : Agrees (shiftLeft checks bits x amount) (shiftLeft false bits x amount) := by
  unfold shiftLeft
  infer_instance

instance shiftRight_agrees :
    Agrees (shiftRight checks bits x amount) (shiftRight false bits x amount) := by
  unfold shiftRight
  infer_instance

instance bit_agrees : Agrees (bit checks width amount) (bit false width amount) where
  agrees a ran := by
    cases checks
    · exact ran
    · rw [bit] at ran ⊢
      split at ran
      · next inside => rwa [if_pos inside]
      · cases ran

end Values

instance erases_self (run : Exec S α) : Erases id run run := ⟨fun _ _ _ same => same⟩

section Views

variable {view : S → S'}

instance erases_pure (a : α) : Erases view (pure a : Exec S α) (pure a) where
  erases s b s' ran := by
    cases ran
    rfl

instance erases_lift {value value' : Checked α} [here : Agrees value value'] :
    Erases view (liftM value : Exec S α) (liftM value') where
  erases s a s' ran := by
    cases value with
    | error fault => cases ran
    | ok b =>
        have same := here.agrees b rfl
        cases ran
        exact lift_ok same _

instance erases_bind {first : Exec S α} {first' : Exec S' α} {next : α → Exec S β}
    {next' : α → Exec S' β} [here : Erases view first first']
    [later : ∀ a, Erases view (next a) (next' a)] :
    Erases view (first >>= next) (first' >>= next') where
  erases s b s' ran := by
    obtain ⟨a, s₁, began, ran⟩ := bind_done ran
    rw [bind_ok (here.erases _ _ _ began)]
    exact (later a).erases _ _ _ ran

instance erases_ite {condition : Prop} [Decidable condition] {yes no : Exec S α} {yes' no' : Exec S' α}
    [whenYes : Erases view yes yes'] [whenNo : Erases view no no'] :
    Erases view (if condition then yes else no) (if condition then yes' else no') := by
  split
  · exact whenYes
  · exact whenNo

theorem Erases.option {run : Exec S (Option α)} {run' : Exec S' (Option α)}
    {next : Option α → Exec S β} {next' : Option α → Exec S' β} (here : Erases view run run')
    (missing : Erases view (next none) (next' none))
    (found : ∀ a, Erases view (next (some a)) (next' (some a))) :
    Erases view (run >>= next) (run' >>= next') := by
  refine @erases_bind _ _ _ _ _ _ _ _ _ here fun result => ?_
  cases result with
  | none => exact missing
  | some a => exact found a

theorem Erases.test {test : Exec S Unit} (reads : ∀ invariant, Maintains invariant test) :
    Erases id test (pure ()) where
  erases s a s' ran := by
    obtain rfl := Maintains.same reads ran
    rfl

variable {Label Output : Type} {step : Label → Exec S Output} {step' : Label → Exec S' Output}

/-- Whatever a client does, it sees the same. -/
theorem Erases.play (erases : ∀ label, Erases view (step label) (step' label))
    (client : Client Label Output) (steps : Nat) {history seen : List (Label × Output)} {s s' : S}
    (ran : CheckedMachine.play step client steps history s = .ok (seen, s')) :
    CheckedMachine.play step' client steps history (view s) = .ok (seen, view s') := by
  induction steps generalizing history s with
  | zero =>
      cases ran
      rfl
  | succ steps ih =>
      rw [CheckedMachine.play] at ran ⊢
      cases chosen : client history with
      | none =>
          rw [chosen] at ran
          cases ran
          rfl
      | some label =>
          rw [chosen] at ran
          obtain ⟨⟨output, s₁⟩, stepped, ran⟩ := result_done ran
          dsimp only
          rw [(erases label).erases s output s₁ stepped]
          exact ih ran

end Views

end Picoalloc.CheckedMachine
