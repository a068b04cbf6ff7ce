import Picoalloc.Contracts
import Picoalloc.Footprints

/-!
Runs with every check compiled in. Overflows, shifts, indices, null pointers, accesses
outside of granted memory and failed assertions are faults of the model, so a run that
goes through has met none, in the middle of an operation or at its ends.
-/

namespace Picoalloc
open CheckedMachine ByteMemory

variable {σ : Type} {target : Target} {E : Env σ} {total : Nat}

def checkedBuild (target : Target) : Build := ⟨target, true, true, true⟩

/-- Every finite run of permitted calls goes through, and the sizes of the payloads that
are live then can be read. -/
theorem checked_runs (lawful : E.Lawful target total) (env : σ) (memory : Memory) (ops : List Op)
    (permitted : PermitsList Permitted (step E) ops (Session.start (checkedBuild target) env memory)) :
    ∃ outcomes session,
      runList (step E) ops (Session.start (checkedBuild target) env memory) = .ok (outcomes, session) ∧
        ∀ handle pointer, session.live handle = some pointer → ∃ length,
          usableSize (checkedBuild target) pointer session.allocator =
            .ok (length, session.allocator) := by
  have lawful' : E.Lawful (checkedBuild target).target total := lawful
  have progress : ∀ (op : Op) (session : Session (checkedBuild target) σ),
      Sound total memory session → Permitted op session →
      ∃ outcome session', step E op session = .ok (outcome, session') ∧ Sound total memory session' :=
    fun op session sound allowed => step_sound lawful' sound allowed (copies_inplace rfl op session)
  obtain ⟨outcomes, session, ran, sound⟩ :=
    runList_ok (Sound total memory) progress (Or.inl (start_idle env memory)) permitted
  exact ⟨outcomes, session, ran, sound.apart.sized⟩

section Sample

variable {build : Build}

def Op.allowed (op : Op) (session : Session build σ) : Bool :=
  match op with
  | .alloc _ _ | .allocZeroed _ _ => true
  | .free handle | .growInplace handle _ | .realloc handle _ _ => (session.live handle).isSome
  | .shrinkInplace handle newSize =>
      (session.live handle).isSome && decide (newSize < 2 ^ sizeBits - 1)
  | .write handle index _ =>
      match session.live handle with
      | none => false
      | some pointer =>
          check (fun result => decide (index < result.1)) (usableSize build pointer session.allocator)

theorem Op.allowed_permitted (op : Op) (session : Session build σ) (allowed : op.allowed session = true) :
    Permitted op session := by
  cases op with
  | alloc | allocZeroed => trivial
  | free handle | growInplace handle | realloc handle => exact Option.isSome_iff_ne_none.mp allowed
  | shrinkInplace handle newSize =>
      obtain ⟨live, bound⟩ := Bool.and_eq_true_iff.mp allowed
      exact ⟨Option.isSome_iff_ne_none.mp live, of_decide_eq_true bound⟩
  | write handle index byte =>
      rw [Op.allowed] at allowed
      split at allowed
      · cases allowed
      · next pointer live =>
        obtain ⟨⟨length, s⟩, read, inside⟩ := check_ok allowed
        have unchanged : Maintains (fun s => s = session.allocator) (usableSize build pointer) := by
          unfold usableSize
          infer_instance
        rw [unchanged.keeps _ _ _ rfl read] at read
        exact ⟨pointer, length, live, read, of_decide_eq_true inside⟩

def sampleOps : List Op :=
  [.alloc 1 2, .allocZeroed 2 1, .realloc 1 2 2, .write 0 5 7, .free 0]

theorem checked_runs_sample : ∃ outcomes session,
    runList (step sampleEnv) sampleOps (Session.start (checkedBuild .x86_64) () fun _ => 0) =
        .ok (outcomes, session) ∧
      ∀ handle pointer, session.live handle = some pointer → ∃ length,
        usableSize (checkedBuild .x86_64) pointer session.allocator =
          .ok (length, session.allocator) := by
  have permitted : PermitsList Permitted (step sampleEnv) sampleOps
      (Session.start (checkedBuild .x86_64) () fun _ => 0) :=
    allowsList_permits Op.allowed_permitted (by decide +kernel)
  exact checked_runs sample_lawful () _ sampleOps permitted

end Sample

end Picoalloc
