import Mathlib

/-!
Machine integers with overflow checks, and stateful execution that can fault.
An operation on `bits`-wide unsigned integers takes and returns naturals. When
the exact result does not fit, a build with checks panics and a build without
them keeps the result modulo `2 ^ bits`. A shift by the full width or more is
an overflow too; without checks the amount is taken modulo the width.
-/

namespace Picoalloc.CheckedMachine

/-- The ways an execution can go wrong. Only `panic` is a defined outcome. -/
inductive Fault where
  | panic
  | nullPointer
  | outOfBounds
  | unmapped
  | overlap
  deriving DecidableEq, Repr

abbrev Checked (α : Type) := Except Fault α

def overflow (checks : Bool) (wrapped : Nat) : Checked Nat :=
  if checks then .error .panic else .ok wrapped

def add (checks : Bool) (bits x y : Nat) : Checked Nat :=
  if x + y < 2 ^ bits then .ok (x + y) else overflow checks ((x + y) % 2 ^ bits)

def sub (checks : Bool) (bits x y : Nat) : Checked Nat :=
  if y ≤ x then .ok (x - y) else overflow checks ((2 ^ bits + x - y) % 2 ^ bits)

def shiftLeft (checks : Bool) (bits x amount : Nat) : Checked Nat :=
  if amount < bits then .ok ((x <<< amount) % 2 ^ bits)
  else overflow checks ((x <<< (amount % bits)) % 2 ^ bits)

def shiftRight (checks : Bool) (bits x amount : Nat) : Checked Nat :=
  if amount < bits then .ok (x >>> amount) else overflow checks (x >>> (amount % bits))

def bit (checks : Bool) (width amount : Nat) : Checked (BitVec width) :=
  if amount < width then .ok (BitVec.ofNat width 1 <<< amount)
  else if checks then .error .panic else .ok (BitVec.ofNat width 1 <<< (amount % width))

variable {checks : Bool} {bits x y amount width : Nat}

theorem add_ok (fits : x + y < 2 ^ bits) : add checks bits x y = .ok (x + y) := by
  simp [add, fits]

theorem sub_ok (fits : y ≤ x) : sub checks bits x y = .ok (x - y) := by
  simp [sub, fits]

theorem shiftLeft_ok (inside : amount < bits) (fits : x * 2 ^ amount < 2 ^ bits) :
    shiftLeft checks bits x amount = .ok (x * 2 ^ amount) := by
  simp [shiftLeft, inside, Nat.shiftLeft_eq, Nat.mod_eq_of_lt fits]

theorem shiftRight_ok (inside : amount < bits) :
    shiftRight checks bits x amount = .ok (x / 2 ^ amount) := by
  simp [shiftRight, inside, Nat.shiftRight_eq_div_pow]

theorem bit_ok (inside : amount < width) :
    bit checks width amount = .ok (BitVec.ofNat width 1 <<< amount) := by
  simp [bit, inside]

def check {α : Type} (test : α → Bool) : Checked α → Bool
  | .ok result => test result
  | .error _ => false

theorem check_ok {α : Type} {test : α → Bool} {execution : Checked α}
    (passed : check test execution = true) :
    ∃ result, execution = .ok result ∧ test result = true := by
  cases execution with
  | ok result => exact ⟨result, rfl, passed⟩
  | error _ => cases passed

section Execution

variable {S α β : Type}

theorem result_done {value : Checked α} {next : α → Checked β} {b : β}
    (ran : (value >>= next) = .ok b) : ∃ a, value = .ok a ∧ next a = .ok b := by
  cases value with
  | error fault => cases ran
  | ok a => exact ⟨a, rfl, ran⟩

abbrev Exec (S α : Type) := StateT S (Except Fault) α

/-- The execution rule: a first step that succeeds is replaced by its result. -/
theorem bind_ok {first : Exec S α} {next : α → Exec S β} {s s' : S} {a : α}
    (done : first s = .ok (a, s')) : (first >>= next) s = next a s' := by
  simp [bind, StateT.bind, done, Except.bind]

theorem bind_error {first : Exec S α} {next : α → Exec S β} {s : S} {fault : Fault}
    (failed : first s = .error fault) : (first >>= next) s = .error fault := by
  simp [bind, StateT.bind, failed, Except.bind]

theorem bind_done {first : Exec S α} {next : α → Exec S β} {s s' : S} {b : β}
    (ran : (first >>= next) s = .ok (b, s')) :
    ∃ a s₁, first s = .ok (a, s₁) ∧ next a s₁ = .ok (b, s') := by
  cases began : first s with
  | error fault =>
      rw [bind_error began] at ran
      cases ran
  | ok done =>
      obtain ⟨a, s₁⟩ := done
      rw [bind_ok began] at ran
      exact ⟨a, s₁, rfl, ran⟩

theorem pure_apply (a : α) (s : S) : (pure a : Exec S α) s = .ok (a, s) := rfl

theorem get_apply (s : S) : (get : Exec S S) s = .ok (s, s) := rfl

theorem modify_apply (f : S → S) (s : S) : (modify f : Exec S PUnit) s = .ok (⟨⟩, f s) := rfl

theorem lift_ok {value : Checked α} {a : α} (done : value = .ok a) (s : S) :
    (liftM value : Exec S α) s = .ok (a, s) := by
  subst done
  rfl

theorem lift_error {value : Checked α} {fault : Fault} (failed : value = .error fault) (s : S) :
    (liftM value : Exec S α) s = .error fault := by
  subst failed
  rfl

/-- An invariant that survives every execution that ends. The instances follow the
structure of a computation, so that instance search proves it of a whole function. -/
class Maintains (invariant : S → Prop) (run : Exec S α) : Prop where
  keeps : ∀ s a s', invariant s → run s = .ok (a, s') → invariant s'

section Maintaining

variable {invariant : S → Prop}

instance maintains_pure (a : α) : Maintains invariant (pure a : Exec S α) where
  keeps s b s' holds ran := by
    cases ran
    exact holds

instance maintains_get : Maintains invariant (get : Exec S S) where
  keeps s b s' holds ran := by
    cases ran
    exact holds

instance maintains_throw (fault : Fault) : Maintains invariant (throw fault : Exec S α) where
  keeps _ _ _ _ ran := by cases ran

instance maintains_lift (value : Checked α) : Maintains invariant (liftM value : Exec S α) where
  keeps s b s' holds ran := by
    cases value with
    | error fault => cases ran
    | ok a =>
        cases ran
        exact holds

instance maintains_bind {first : Exec S α} {next : α → Exec S β} [here : Maintains invariant first]
    [later : ∀ a, Maintains invariant (next a)] : Maintains invariant (first >>= next) where
  keeps s b s' holds ran := by
    obtain ⟨a, s₁, began, ran⟩ := bind_done ran
    exact (later a).keeps s₁ b s' (here.keeps s a s₁ holds began) ran

instance maintains_ite {condition : Prop} [Decidable condition] {yes no : Exec S α}
    [whenYes : Maintains invariant yes] [whenNo : Maintains invariant no] :
    Maintains invariant (if condition then yes else no) := by
  split
  · exact whenYes
  · exact whenNo

/-- A computation that keeps every invariant leaves the state as it was. -/
theorem Maintains.same {run : Exec S α} (reads : ∀ invariant, Maintains invariant run) {s s' : S}
    {a : α} (ran : run s = .ok (a, s')) : s' = s :=
  (reads (· = s)).keeps s a s' rfl ran

end Maintaining

end Execution

section Runs

variable {State Label Output : Type}

inductive Reachable (start : State → Prop) (permitted : Label → State → Prop)
    (step : Label → State → Checked (Output × State)) : State → Prop where
  | start {s} : start s → Reachable start permitted step s
  | step {s s'} {label : Label} {output : Output} :
      Reachable start permitted step s → permitted label s →
      step label s = .ok (output, s') → Reachable start permitted step s'

theorem Reachable.mono {start : State → Prop} {permitted permitted' : Label → State → Prop}
    {step : Label → State → Checked (Output × State)}
    (wider : ∀ label s, permitted label s → permitted' label s) {s : State}
    (reached : Reachable start permitted step s) : Reachable start permitted' step s := by
  induction reached with
  | start begun => exact .start begun
  | step _ allowed stepped ih => exact .step ih (wider _ _ allowed) stepped

/-- The invariant rule: what holds at the start and survives every permitted
step holds in every reachable state. -/
theorem Reachable.invariant {start : State → Prop} {permitted : Label → State → Prop}
    {step : Label → State → Checked (Output × State)} (invariant : State → Prop)
    (initial : ∀ s, start s → invariant s)
    (preserved : ∀ s label output s', invariant s → permitted label s →
      step label s = .ok (output, s') → invariant s')
    {s : State} (reached : Reachable start permitted step s) : invariant s := by
  induction reached with
  | start begun => exact initial _ begun
  | step _ allowed stepped ih => exact preserved _ _ _ _ ih allowed stepped

variable {permitted : Label → State → Prop} {step : Label → State → Checked (Output × State)}
  {label : Label} {rest labels : List Label} {s s' s'' : State} {output : Output}
  {outputs : List Output}

def runList (step : Label → State → Checked (Output × State)) :
    List Label → State → Checked (List Output × State)
  | [], s => .ok ([], s)
  | label :: rest, s => do
      let (output, s') ← step label s
      let (outputs, s'') ← runList step rest s'
      return (output :: outputs, s'')

def PermitsList (permitted : Label → State → Prop) (step : Label → State → Checked (Output × State)) :
    List Label → State → Prop
  | [], _ => True
  | label :: rest, s => permitted label s ∧
      ∀ output s', step label s = .ok (output, s') → PermitsList permitted step rest s'

def allowsList (allowed : Label → State → Bool) (step : Label → State → Checked (Output × State)) :
    List Label → State → Bool
  | [], _ => true
  | label :: rest, s => allowed label s &&
      check (fun result => allowsList allowed step rest result.2) (step label s)

theorem allowsList_permits {allowed : Label → State → Bool}
    (sound : ∀ label s, allowed label s = true → permitted label s)
    (allows : allowsList allowed step labels s = true) : PermitsList permitted step labels s := by
  induction labels generalizing s with
  | nil => trivial
  | cons label rest ih =>
      obtain ⟨here, later⟩ := Bool.and_eq_true_iff.mp allows
      refine ⟨sound label s here, fun output s' stepped => ih ?_⟩
      rw [stepped] at later
      exact later

theorem runList_cons (stepped : step label s = .ok (output, s'))
    (ran : runList step rest s' = .ok (outputs, s'')) :
    runList step (label :: rest) s = .ok (output :: outputs, s'') := by
  simp [runList, stepped, ran, bind, Except.bind, pure, Except.pure]

theorem runList_snoc (ran : runList step labels s = .ok (outputs, s'))
    (stepped : step label s' = .ok (output, s'')) :
    runList step (labels ++ [label]) s = .ok (outputs ++ [output], s'') := by
  induction labels generalizing s outputs with
  | nil =>
      cases ran
      exact runList_cons stepped rfl
  | cons first rest ih =>
      obtain ⟨⟨output₁, s₁⟩, here, ran⟩ := result_done ran
      obtain ⟨⟨outputs₁, s₂⟩, later, ran⟩ := result_done ran
      cases ran
      exact runList_cons here (ih later)

/-- The progress rule: where permitted steps from the invariant go through and keep it, so
do permitted lists. -/
theorem runList_ok (invariant : State → Prop)
    (progress : ∀ label s, invariant s → permitted label s →
      ∃ output s', step label s = .ok (output, s') ∧ invariant s')
    (holds : invariant s) (allowed : PermitsList permitted step labels s) :
    ∃ outputs s', runList step labels s = .ok (outputs, s') ∧ invariant s' := by
  induction labels generalizing s with
  | nil => exact ⟨[], s, rfl, holds⟩
  | cons label rest ih =>
      obtain ⟨output, s', stepped, holds'⟩ := progress label s holds allowed.1
      obtain ⟨outputs, s'', ran, holds''⟩ := ih holds' (allowed.2 output s' stepped)
      exact ⟨output :: outputs, s'', runList_cons stepped ran, holds''⟩

end Runs

end Picoalloc.CheckedMachine
