import Picoalloc.Contracts

/-!
The bytes of live payloads. No call changes a payload that it is not about, resizing in
place keeps what both sizes have in common, and zeroed allocations are zero as long as
the environment hands out zeroed memory.
-/

namespace Picoalloc
open CheckedMachine ByteMemory Tilings

variable {build : Build} {σ : Type} {E : Env σ} {total : Nat} {memory : Memory}
  {session session' : Session build σ}

def Op.InPlace (handle : Nat) : Op → Prop
  | .shrinkInplace other newSize => other = handle ∧ newSize ≠ 0
  | .growInplace other _ => other = handle
  | _ => False

/-- The bytes of live payloads before and after the next call, and over the whole run. -/
structure Intact (E : Env σ) (session : Session build σ) : Prop where
  others : ∀ op outcome session', Permitted op session → step E op session = .ok (outcome, session') →
    ∀ handle pointer length, op.handle ≠ some handle → session.live handle = some pointer →
      usableSize build pointer session.allocator = .ok (length, session.allocator) →
      ∀ i < length, session'.allocator.memory (pointer + i) = session.allocator.memory (pointer + i)
  resized : ∀ op outcome session', Permitted op session → step E op session = .ok (outcome, session') →
    ∀ handle pointer length length', op.InPlace handle → session.live handle = some pointer →
      usableSize build pointer session.allocator = .ok (length, session.allocator) →
      usableSize build pointer session'.allocator = .ok (length', session'.allocator) →
      ∀ i < min length length',
        session'.allocator.memory (pointer + i) = session.allocator.memory (pointer + i)
  written : ∀ handle pointer index byte, session.live handle = some pointer →
    session.written handle index = some byte →
    session.allocator.memory (pointer + index) = byte

section Bytes

variable {heap heap' : Heap} {op : Op} {outcome : Outcome} {handle pointer length length' : Nat}

theorem Sound.others (lawful : E.Lawful build.target total) (sound : Sound total memory session)
    (permitted : Permitted op session) (copies : Copies E op session)
    (ran : step E op session = .ok (outcome, session')) (other : op.handle ≠ some handle)
    (live : session.live handle = some pointer)
    (sized : usableSize build pointer session.allocator = .ok (length, session.allocator)) :
    ∀ i < length, session'.allocator.memory (pointer + i) = session.allocator.memory (pointer + i) := by
  rcases sound with idle | ⟨heap, serves⟩
  · rw [idle.live handle] at live
    cases live
  obtain ⟨heap', turn, serves'⟩ := serves.turn lawful.constant permitted copies ran
  obtain ⟨place, size, here, -, -, rfl, usable⟩ := serves.usable live
  cases sized.symm.trans usable
  exact (turn.stays serves other live here).2.bytes

theorem Effect.carried_min {place size size' : Nat} {s s' : AllocatorState build σ}
    (effect : Effect total heap heap' (some (place, size)) (some (place, size')) s s')
    (sized : length = 32 * (size - headerSize)) (sized' : length' = 32 * (size' - headerSize)) :
    ∀ i < min length length', s'.memory (s.unit (place + headerSize) + i) =
      s.memory (s.unit (place + headerSize) + i) := by
  intro i inside
  refine effect.carried (place, size) rfl (place, size') rfl i ?_
  simp only [headerSize] at *
  omega

theorem Turn.resized (turn : Turn total session heap op outcome session' heap')
    (inPlace : op.InPlace handle) (serves : Serves total memory session heap)
    (live : session.live handle = some pointer)
    (sized : usableSize build pointer session.allocator = .ok (length, session.allocator))
    (sized' : usableSize build pointer session'.allocator = .ok (length', session'.allocator)) :
    ∀ i < min length length',
      session'.allocator.memory (pointer + i) = session.allocator.memory (pointer + i) := by
  have represents := serves.represents
  have carries : ∀ {place size size' s' heap'}, heap.Allots place size →
      session.live handle = some (session.allocator.unit (place + headerSize)) →
      Effect total heap heap' (some (place, size)) (some (place, size')) session.allocator s' →
      usableSize build pointer s' = .ok (length', s') →
      ∀ i < min length length', s'.memory (pointer + i) = session.allocator.memory (pointer + i) := by
    intro place size size' s' heap' here live' effect usable'
    obtain rfl := Option.some.inj (live'.symm.trans live)
    cases sized.symm.trans (usableSize_ok represents here)
    have here' := (effect.allots place size').mpr (Or.inl rfl)
    have resized := usableSize_ok effect.represents here'
    rw [effect.keeps.unit] at resized
    cases usable'.symm.trans resized
    exact effect.carried_min rfl rfl
  cases turn with
  | shrunk here live' nonempty effect =>
      obtain ⟨rfl, -⟩ := inPlace
      exact carries here live' effect sized'
  | grown here live' effect =>
      obtain rfl := inPlace
      exact carries here live' effect sized'
  | failed live' call unchanged =>
      intro i _
      rw [unchanged.memory]
  | @granted _ _ _ _ isCalloc _ _ call | @refused _ _ _ isCalloc _ call =>
      subst call
      cases isCalloc <;> cases inPlace
  | freed here live' call effect =>
      rcases call with ⟨rfl | rfl, -⟩ | ⟨_, rfl, -⟩
      · cases inPlace
      · exact absurd rfl inPlace.2
      · cases inPlace
  | moved | wrote => cases inPlace

theorem Sound.resized (lawful : E.Lawful build.target total) (sound : Sound total memory session)
    (permitted : Permitted op session) (copies : Copies E op session)
    (ran : step E op session = .ok (outcome, session')) (inPlace : op.InPlace handle)
    (live : session.live handle = some pointer)
    (sized : usableSize build pointer session.allocator = .ok (length, session.allocator))
    (sized' : usableSize build pointer session'.allocator = .ok (length', session'.allocator)) :
    ∀ i < min length length',
      session'.allocator.memory (pointer + i) = session.allocator.memory (pointer + i) := by
  rcases sound with idle | ⟨heap, serves⟩
  · rw [idle.live handle] at live
    cases live
  obtain ⟨heap', turn, -⟩ := serves.turn lawful.constant permitted copies ran
  exact turn.resized inPlace serves live sized sized'

theorem Sound.written (sound : Sound total memory session) {index : Nat} {byte : UInt8}
    (live : session.live handle = some pointer) (wrote : session.written handle index = some byte) :
    session.allocator.memory (pointer + index) = byte := by
  rcases sound with idle | ⟨heap, serves⟩
  · rw [idle.live handle] at live
    cases live
  obtain ⟨place, size, here, -, -, rfl, -⟩ := serves.usable live
  exact (serves.contents handle place size index byte here live wrote).2

/-- No call corrupts live data. -/
theorem live_data_intact (lawful : E.Lawful build.target total) (inplace : build.reallocInplace = true)
    (reached : Reached build E memory session) : Intact E session := by
  have sound := reached.sound lawful inplace
  constructor
  · intro op outcome session' permitted ran handle pointer length other live sized
    exact sound.others lawful permitted (copies_inplace inplace op session) ran other live sized
  · intro op outcome session' permitted ran handle pointer length length' inPlace live sized sized'
    exact sound.resized lawful permitted (copies_inplace inplace op session) ran inPlace live sized sized'
  · intro handle pointer index byte live wrote
    exact sound.written live wrote

theorem live_data_intact_sample : ∃ session pointer outcome,
    step sampleEnv (.alloc 1 2) sampleStart = .ok (outcome, session) ∧
      session.live 0 = some pointer ∧ Intact sampleEnv session := by
  obtain ⟨session, pointer, outcome, run, live, reached⟩ := sample_allocated
  exact ⟨session, pointer, outcome, run, live, live_data_intact sample_lawful rfl reached⟩

end Bytes

section Zeroed

/-- Memory is zero when the environment first grants it: nothing was written to it before,
so it is zero in the memory that a session begins with. -/
def GrantsZeroed (memory : Memory) (trace : List Event) : Prop :=
  ∀ base size, .expandMemoryUntil base size true ∈ trace → ∀ i < 32 * size, memory (base + i) = 0

theorem granted_mem {base : Nat} {trace : List Event} (some_ : 0 < granted base trace) :
    .expandMemoryUntil base (granted base trace) true ∈ trace := by
  induction trace with
  | nil => simp [granted] at some_
  | cons event rest ih =>
      cases event with
      | allocateAddressSpace place => exact List.mem_cons_of_mem _ (ih some_)
      | freeAddressSpace place =>
          by_cases same : place = base
          · simp [granted, same] at some_
          · rw [granted, if_neg same] at some_ ⊢
            exact List.mem_cons_of_mem _ (ih some_)
      | expandMemoryUntil place size isOk =>
          cases isOk with
          | false => exact List.mem_cons_of_mem _ (ih some_)
          | true =>
              by_cases same : place = base
              · subst same
                rw [granted, if_pos rfl] at some_ ⊢
                rcases le_total (granted place rest) size with smaller | larger
                · rw [Nat.max_eq_left smaller]
                  exact List.mem_cons_self
                · rw [Nat.max_eq_right larger] at some_ ⊢
                  exact List.mem_cons_of_mem _ (ih some_)
              · rw [granted, if_neg same] at some_ ⊢
                exact List.mem_cons_of_mem _ (ih some_)

variable {align size pointer length : Nat}

theorem Sound.zeroed (lawful : E.Lawful build.target total) (sound : Sound total memory session)
    (ran : step E (.allocZeroed align size) session = .ok (.pointer (some pointer), session')) :
    ∃ place, pointer = session'.allocator.unit (place + headerSize) ∧
      place + (size + headerSize) ≤ session'.allocator.allocatedSpace ∧
      Placed total session'.allocator ∧
      usableSize build pointer session'.allocator = .ok (32 * size, session'.allocator) ∧
      ∀ i < 32 * size, session'.allocator.memory (pointer + i) = 0 ∨
        session'.allocator.memory (pointer + i) = memory (pointer + i) := by
  have called : step E (Op.allocation true align size) session =
    .ok (.pointer (some pointer), session') := ran
  obtain ⟨s₁, heap, heap', place, s', serves₁, rfl, rfl, effect, returned⟩ :=
    sound.returned lawful called
  have here : heap'.Allots place (size + headerSize) := (effect.allots _ _).mpr (Or.inl rfl)
  have usable := usableSize_ok effect.represents here
  rw [effect.keeps.unit, Nat.add_sub_cancel] at usable
  refine ⟨place, (effect.keeps.unit _).symm, (effect.represents.materialized here).2 rfl,
    effect.represents.placed, usable, fun i inside => ?_⟩
  have filled := returned.filled i inside
  split at filled
  · exact Or.inl filled
  next fresh =>
  -- Nothing was written behind the allocated space, so the fill may be skipped.
  have behind : s₁.allocatedSpace ≤ place + headerSize := by simpa using fresh
  exact Or.inr (filled.trans (serves₁.fresh _ (by simp only [State.unit]; omega)))

theorem Sound.cleared (lawful : E.Lawful build.target total) (sound : Sound total memory session)
    (ran : step E (.allocZeroed align size) session = .ok (.pointer (some pointer), session'))
    (zeroed : GrantsZeroed memory session'.allocator.trace) :
    usableSize build pointer session'.allocator = .ok (32 * size, session'.allocator) ∧
      ∀ i < 32 * size, session'.allocator.memory (pointer + i) = 0 := by
  obtain ⟨place, rfl, covered, placed, usable, bytes⟩ := sound.zeroed lawful ran
  refine ⟨usable, fun i inside => ?_⟩
  rcases bytes i inside with filled | same
  · exact filled
  have space := placed.granted_eq
  simp only [headerSize] at covered
  have some_ : 0 < Picoalloc.granted session'.allocator.baseAddress session'.allocator.trace := by
    rw [space]
    omega
  have fresh := zeroed _ _ (granted_mem some_) (32 * (place + headerSize) + i) (by
    rw [space]
    simp only [headerSize]
    omega)
  rw [same, ← fresh, State.unit, Nat.add_assoc]

/-- Memory that `alloc_zeroed` returns is zero, whether it fills it or not. -/
theorem allocZeroed_zero (lawful : E.Lawful build.target total)
    (inplace : build.reallocInplace = true) (reached : Reached build E memory session)
    (ran : step E (.allocZeroed align size) session = .ok (.pointer (some pointer), session'))
    (zeroed : GrantsZeroed memory session'.allocator.trace)
    (sized : usableSize build pointer session'.allocator = .ok (length, session'.allocator)) :
    ∀ i < length, session'.allocator.memory (pointer + i) = 0 := by
  obtain ⟨usable, zero⟩ := (reached.sound lawful inplace).cleared lawful ran zeroed
  cases sized.symm.trans usable
  exact zero

/-- Two units that a client wrote to and freed, allocated again as zeros. -/
theorem allocZeroed_zero_sample : ∃ first second third session,
    step sampleEnv (.alloc 1 2) sampleStart = .ok (.pointer (some 64), first) ∧
      step sampleEnv (.write 0 0 7) first = .ok (.done, second) ∧
      step sampleEnv (.free 0) second = .ok (.done, third) ∧ third.allocator.memory 64 = 7 ∧
      step sampleEnv (.allocZeroed 1 2) third = .ok (.pointer (some 64), session) ∧
      ∀ i < 64, session.allocator.memory (64 + i) = 0 := by
  obtain ⟨⟨outcome₁, first⟩, allocated, passed⟩ := check_ok
    (show check (fun first => first.1 == .pointer (some 64) && first.2.live 0 == some 64 &&
        check (fun second => second.1 == .done && second.2.live 0 == some 64 &&
          check (fun third => third.1 == .done && third.2.allocator.memory 64 == 7 &&
            check (fun last => last.1 == .pointer (some 64)) (step sampleEnv (.allocZeroed 1 2) third.2))
          (step sampleEnv (.free 0) second.2))
        (step sampleEnv (.write 0 0 7) first.2))
      (step sampleEnv (.alloc 1 2) sampleStart) = true by decide +kernel)
  simp only [Bool.and_eq_true, beq_iff_eq] at passed
  obtain ⟨⟨rfl, live⟩, passed⟩ := passed
  obtain ⟨⟨outcome₂, second⟩, wrote, passed⟩ := check_ok passed
  simp only [Bool.and_eq_true, beq_iff_eq] at passed
  obtain ⟨⟨rfl, live'⟩, passed⟩ := passed
  obtain ⟨⟨outcome₃, third⟩, freed, passed⟩ := check_ok passed
  simp only [Bool.and_eq_true, beq_iff_eq] at passed
  obtain ⟨⟨rfl, seven⟩, passed⟩ := passed
  obtain ⟨⟨outcome, session⟩, zeroed, returned⟩ := check_ok passed
  obtain rfl : outcome = .pointer (some 64) := by simpa using returned
  have called : step sampleEnv (Op.allocation false 1 2) sampleStart =
    .ok (.pointer (some 64), first) := allocated
  have usable := ((sample_reached.sound sample_lawful rfl).granted sample_lawful called).2.2
  have reached₁ := sample_reached.step (show Permitted (.alloc 1 2) sampleStart from trivial) allocated
  have reached₂ := reached₁.step
    (show Permitted (.write 0 0 7) first from ⟨64, _, live, usable, by decide⟩) wrote
  have reached₃ := reached₂.step (show Permitted (.free 0) second from by
    rw [Permitted, live']
    exact Option.some_ne_none _) freed
  have again : step sampleEnv (Op.allocation true 1 2) third =
    .ok (.pointer (some 64), session) := zeroed
  have sized := ((Reached.sound sample_lawful rfl reached₃).granted sample_lawful again).2.2
  exact ⟨first, second, third, session, allocated, wrote, freed, seven, zeroed,
    allocZeroed_zero sample_lawful rfl reached₃ zeroed (fun _ _ _ _ _ => rfl) sized⟩

end Zeroed

end Picoalloc
