import Picoalloc.HeapInvariant

/-!
What a client may rely on: pointers as aligned and payloads as large as they were asked
for, apart from each other and from every header, and undisturbed by calls on other
pointers.
-/

namespace Picoalloc
open CheckedMachine ByteMemory Tilings

variable {build : Build} {σ : Type} {E : Env σ} {total : Nat} {memory : Memory}
  {session session' : Session build σ}

def Op.handle : Op → Option Nat
  | .alloc _ _ | .allocZeroed _ _ => none
  | .free handle | .shrinkInplace handle _ | .growInplace handle _ | .realloc handle _ _
  | .write handle _ _ => some handle

def Op.Resizes (handle : Nat) : Op → Prop
  | .free other | .shrinkInplace other _ | .growInplace other _ | .realloc other _ _ => other = handle
  | .alloc _ _ | .allocZeroed _ _ | .write _ _ _ => False

/-- The payloads of a session: distinct pointers, ranges inside the space that are
apart from each other and from the header of every chunk. -/
structure Apart (total : Nat) (session : Session build σ) : Prop where
  sized : ∀ handle pointer, session.live handle = some pointer →
    ∃ length, usableSize build pointer session.allocator = .ok (length, session.allocator)
  distinct : ∀ handle handle' pointer, session.live handle = some pointer →
    session.live handle' = some pointer → handle = handle'
  disjoint : ∀ handle handle' pointer pointer' length length', handle ≠ handle' →
    session.live handle = some pointer → session.live handle' = some pointer' →
    usableSize build pointer session.allocator = .ok (length, session.allocator) →
    usableSize build pointer' session.allocator = .ok (length', session.allocator) →
    pointer + length ≤ pointer' ∨ pointer' + length' ≤ pointer
  inside : ∀ handle pointer length, session.live handle = some pointer →
    usableSize build pointer session.allocator = .ok (length, session.allocator) →
    session.allocator.baseAddress + 32 ≤ pointer ∧
      pointer + length ≤ session.allocator.baseAddress + 32 * total
  headers : ∀ handle pointer length place chunk, session.live handle = some pointer →
    usableSize build pointer session.allocator = .ok (length, session.allocator) →
    ChunkAt 0 (session.allocator.chunks total) place chunk →
    pointer + length ≤ session.allocator.unit place ∨ session.allocator.unit place + 32 ≤ pointer

/-- What the next call on a session does for its clients. -/
structure Contract (E : Env σ) (total : Nat) (session : Session build σ) : Prop where
  apart : Apart total session
  granted : ∀ isCalloc align size session' pointer,
    step E (Op.allocation isCalloc align size) session = .ok (.pointer (some pointer), session') →
    session'.live session.calls = some pointer ∧ pointer % Size.bytes align = 0 ∧
      usableSize build pointer session'.allocator = .ok (Size.bytes size, session'.allocator)
  kept : ∀ op outcome session', Permitted op session → step E op session = .ok (outcome, session') →
    ∀ handle pointer length, ¬ op.Resizes handle → session.live handle = some pointer →
      usableSize build pointer session.allocator = .ok (length, session.allocator) →
      session'.live handle = some pointer ∧
        usableSize build pointer session'.allocator = .ok (length, session'.allocator)

section Payloads

variable {heap heap' : Heap} {handle pointer place size : Nat}

theorem Serves.usable (serves : Serves total memory session heap)
    (live : session.live handle = some pointer) : ∃ place size, heap.Allots place size ∧
      0 < size ∧ place + size ≤ total ∧ pointer = session.allocator.unit (place + headerSize) ∧
      usableSize build pointer session.allocator = .ok (32 * (size - headerSize), session.allocator) := by
  obtain ⟨place, size, here, rfl⟩ := serves.held handle pointer live
  have represents := serves.represents
  have granted := (represents.materialized here).2 rfl
  have within := represents.placed.within
  exact ⟨place, size, here, represents.valid.positive _ (tileAt_mem here), by
    simp only at granted
    omega, rfl, usableSize_ok represents here⟩

theorem Serves.apart (serves : Serves total memory session heap) : Apart total session := by
  have represents := serves.represents
  constructor
  · intro handle pointer live
    obtain ⟨place, size, -, -, -, -, usable⟩ := serves.usable live
    exact ⟨_, usable⟩
  · exact serves.distinct
  · intro handle handle' pointer pointer' length length' different live live' sized sized'
    obtain ⟨place, size, here, wide, -, rfl, usable⟩ := serves.usable live
    obtain ⟨place', size', here', wide', -, rfl, usable'⟩ := serves.usable live'
    cases sized.symm.trans usable
    cases sized'.symm.trans usable'
    have apart := heap.chunks_apart here here'
    have other : place ≠ place' := by
      rintro rfl
      exact different (serves.distinct _ _ _ live live')
    simp only [State.unit, headerSize] at *
    omega
  · intro handle pointer length live sized
    obtain ⟨place, size, here, wide, within, rfl, usable⟩ := serves.usable live
    cases sized.symm.trans usable
    simp only [State.unit, headerSize] at *
    omega
  · intro handle pointer length other chunk live sized there
    obtain ⟨place, size, here, wide, -, rfl, usable⟩ := serves.usable live
    cases sized.symm.trans usable
    rw [represents.chunks] at there
    have wide' := represents.valid.positive _ (tileAt_mem there)
    have apart := heap.chunks_apart here there
    simp only [State.unit, headerSize] at *
    omega

end Payloads

section Turns

variable {heap heap' : Heap} {op : Op} {outcome : Outcome} {place size : Nat}

structure Stays (heap' : Heap) (place size : Nat) (s s' : AllocatorState build σ) : Prop where
  base : s'.baseAddress = s.baseAddress
  allots : heap'.Allots place size
  bytes : ∀ i < 32 * (size - headerSize),
    s'.memory (s.unit (place + headerSize) + i) = s.memory (s.unit (place + headerSize) + i)

theorem Effect.stays {old new : Option (Nat × Nat)} {s s' : AllocatorState build σ}
    (effect : Effect total heap heap' old new s s') (rest : heap.Rest old place size) :
    Stays heap' place size s s' where
  base := effect.keeps.baseAddress
  allots := (effect.allots _ _).mpr (Or.inr rest)
  bytes i inside := by
    refine effect.keeps.payload place size _ rest (Nat.le_add_right _ _) ?_
    simp only [State.unit, headerSize] at *
    omega

theorem Unchanged.stays {s s' : AllocatorState build σ} (unchanged : Unchanged s s')
    (here : heap.Allots place size) : Stays heap place size s s' where
  base := unchanged.baseAddress
  allots := here
  bytes _ _ := by rw [unchanged.memory]

theorem Serves.rest (serves : Serves total memory session heap) {handle other place' size' : Nat}
    (different : handle ≠ other)
    (live' : session.live handle = some (session.allocator.unit (place' + headerSize)))
    (live : session.live other = some (session.allocator.unit (place + headerSize)))
    (here : heap.Allots place size) : heap.Rest (some (place', size')) place size := by
  rw [rest_some]
  refine ⟨here, ?_⟩
  rintro rfl
  exact different (serves.distinct _ _ _ live' live)

theorem Turn.stays (turn : Turn total session heap op outcome session' heap')
    (serves : Serves total memory session heap) {other : Nat} (apart : op.handle ≠ some other)
    (live : session.live other = some (session.allocator.unit (place + headerSize)))
    (here : heap.Allots place size) :
    session'.live other = session.live other ∧
      Stays heap' place size session.allocator session'.allocator := by
  have numbered : other ≠ session.calls :=
    (serves.numbered other (by rw [live]; exact Option.some_ne_none _)).ne
  cases turn with
  | granted call effect returned =>
      exact ⟨Function.update_of_ne numbered _ _, effect.stays ⟨here, fun _ none => nomatch none⟩⟩
  | refused call unchanged =>
      exact ⟨Function.update_of_ne numbered _ _, unchanged.stays here⟩
  | @freed _ _ handle _ _ _ _ here' live' call effect =>
      have named : op.handle = some handle := by
        rcases call with ⟨rfl | rfl, -⟩ | ⟨_, rfl, -⟩ <;> rfl
      have different : handle ≠ other := fun same => apart (same ▸ named)
      exact ⟨Function.update_of_ne different.symm _ _,
        effect.stays (serves.rest different live' live here)⟩
  | @shrunk handle _ _ _ _ _ here' live' nonempty effect =>
      have different : handle ≠ other := fun same => apart (congrArg some same)
      exact ⟨Function.update_of_ne different.symm _ _,
        effect.stays (serves.rest different live' live here)⟩
  | @grown handle _ _ _ _ _ here' live' effect =>
      have different : handle ≠ other := fun same => apart (congrArg some same)
      exact ⟨rfl, effect.stays (serves.rest different live' live here)⟩
  | @moved handle _ _ _ _ _ _ _ here' live' effect =>
      have different : handle ≠ other := fun same => apart (congrArg some same)
      exact ⟨Function.update_of_ne different.symm _ _,
        effect.stays (serves.rest different live' live here)⟩
  | failed live' call unchanged => exact ⟨rfl, unchanged.stays here⟩
  | @wrote handle index byte place' size' here' live' inside =>
      have different : handle ≠ other := fun same => apart (congrArg some same)
      have rest : heap.Rest (some (place', size')) place size :=
        serves.rest different live' live here
      refine ⟨Function.update_of_ne different.symm _ _, rfl, here, fun i within => ?_⟩
      have distant := heap.chunks_apart here here'
      have elsewhere := ((rest_some heap _ _ _ _).mp rest).2
      refine Function.update_of_ne ?_ _ _
      simp only [State.unit, headerSize] at *
      omega

theorem allocation_inj {isCalloc isCalloc' : Bool} {align align' size size' : Nat}
    (same : Op.allocation isCalloc align size = Op.allocation isCalloc' align' size') :
    isCalloc = isCalloc' ∧ align = align' ∧ size = size' := by
  cases isCalloc <;> cases isCalloc' <;> cases same
  all_goals exact ⟨rfl, rfl, rfl⟩

theorem Turn.returned {isCalloc : Bool} {align size pointer : Nat}
    (turn : Turn total session heap (Op.allocation isCalloc align size) (.pointer (some pointer))
      session' heap') :
    ∃ place s', pointer = session.allocator.unit (place + headerSize) ∧
      session' = session.allocated (some pointer) s' ∧
      Effect total heap heap' none (some (place, size + headerSize)) session.allocator s' ∧
      Returned align size place
        (decide (session.allocator.allocatedSpace > place + headerSize) && isCalloc)
        session.allocator s' := by
  generalize called : Op.allocation isCalloc align size = op at turn
  generalize answered : Outcome.pointer (some pointer) = outcome at turn
  have notCall : ∀ handle, op.handle ≠ some handle := by
    rintro handle named
    subst called
    cases isCalloc <;> cases named
  cases turn with
  | granted call effect returned =>
      obtain ⟨rfl, rfl, rfl⟩ := allocation_inj (called.trans call)
      cases answered
      exact ⟨_, _, rfl, rfl, effect, returned⟩
  | refused => cases answered
  | freed here live call effect =>
      rcases call with ⟨rfl | rfl, -⟩ | ⟨_, rfl, -⟩ <;> exact absurd rfl (notCall _)
  | failed live call unchanged =>
      rcases call with ⟨rfl, -⟩ | ⟨_, rfl, -⟩ <;> exact absurd rfl (notCall _)
  | shrunk | grown | moved | wrote => exact absurd rfl (notCall _)

theorem Turn.written {handle index pointer : Nat} {byte : UInt8}
    (turn : Turn total session heap (.write handle index byte) outcome session' heap')
    (live : session.live handle = some pointer) :
    heap' = heap ∧ session' = session.rebind handle (some pointer)
      (Function.update (session.written handle) index (some byte))
      (session.allocator.poke (pointer + index) byte) := by
  generalize called : Op.write handle index byte = op at turn
  cases turn with
  | wrote here live' inside =>
      cases called
      obtain rfl := Option.some.inj (live'.symm.trans live)
      exact ⟨rfl, rfl⟩
  | @granted _ _ _ _ isCalloc _ _ call | @refused _ _ _ isCalloc _ call =>
      subst call
      cases isCalloc <;> cases called
  | freed here' live' call =>
      subst called
      rcases call with ⟨impossible | impossible, -⟩ | ⟨_, impossible, -⟩ <;> cases impossible
  | failed live' call =>
      subst called
      rcases call with ⟨impossible, -⟩ | ⟨_, impossible, -⟩ <;> cases impossible
  | shrunk | grown | moved => cases called

theorem handle_written {handle : Nat} (about : op.handle = some handle) (other : ¬ op.Resizes handle) :
    ∃ index byte, op = .write handle index byte := by
  cases op with
  | alloc | allocZeroed => cases about
  | write =>
      obtain rfl := Option.some.inj about
      exact ⟨_, _, rfl⟩
  | free | shrinkInplace | growInplace | realloc => exact absurd (Option.some.inj about) other

theorem Serves.turn (constant : ∀ e, E.totalSpace e = total)
    (serves : Serves total memory session heap) (permitted : Permitted op session)
    (copies : Copies E op session) (ran : step E op session = .ok (outcome, session')) :
    ∃ heap', Turn total session heap op outcome session' heap' ∧ Serves total memory session' heap' := by
  obtain ⟨_, _, heap', run, turn, serves'⟩ := step_served constant serves permitted copies
  obtain ⟨rfl, rfl⟩ := Prod.mk.inj (Except.ok.inj (run.symm.trans ran))
  exact ⟨heap', turn, serves'⟩

/-- A call on a sound session fails for want of a heap, or finds one; on an idle session
that is the fresh heap. -/
theorem Sound.turn (lawful : E.Lawful build.target total) (sound : Sound total memory session)
    (permitted : Permitted op session) (copies : Copies E op session)
    (ran : step E op session = .ok (outcome, session')) :
    (Idle total memory session ∧ Idle total memory session' ∧ outcome = .pointer none ∧
      ∃ s', session' = session.allocated none s' ∧
        (s' = session.allocator ∨ s' = session.allocator.declined E)) ∨
    ∃ s₁ heap heap', (s₁ = session.allocator ∨
        Idle total memory session ∧ heap = Heap.fresh build.target total) ∧
      Serves total memory { session with allocator := s₁ } heap ∧
      Turn total { session with allocator := s₁ } heap op outcome session' heap' ∧
      Serves total memory session' heap' := by
  rcases sound with idle | ⟨heap, serves⟩
  · rcases step_idle lawful idle permitted with
      ⟨s', run, which, idle'⟩ | ⟨s₁, same, permitted₁, copies₁, serves₁⟩
    · obtain ⟨rfl, rfl⟩ := Prod.mk.inj (Except.ok.inj (run.symm.trans ran))
      exact Or.inl ⟨idle, idle', rfl, s', rfl, which⟩
    · obtain ⟨heap', turn, serves'⟩ :=
        serves₁.turn lawful.constant permitted₁ copies₁ (same.symm.trans ran)
      exact Or.inr ⟨s₁, _, heap', Or.inr ⟨idle, rfl⟩, serves₁, turn, serves'⟩
  · obtain ⟨heap', turn, serves'⟩ := serves.turn lawful.constant permitted copies ran
    exact Or.inr ⟨session.allocator, heap, heap', Or.inl rfl, serves, turn, serves'⟩

theorem Idle.apart (idle : Idle total memory session) : Apart total session := by
  have dead : ∀ {handle pointer}, session.live handle ≠ some pointer := fun {handle pointer} live => by
    rw [idle.live handle] at live
    cases live
  constructor
  · exact fun _ _ live => absurd live dead
  · exact fun _ _ _ live => absurd live dead
  · exact fun _ _ _ _ _ _ _ live => absurd live dead
  · exact fun _ _ _ live => absurd live dead
  · exact fun _ _ _ _ _ live => absurd live dead

theorem Sound.apart (sound : Sound total memory session) : Apart total session :=
  sound.elim Idle.apart fun ⟨_, serves⟩ => serves.apart

theorem Sound.returned (lawful : E.Lawful build.target total) (sound : Sound total memory session)
    {isCalloc : Bool} {align size pointer : Nat}
    (ran : step E (Op.allocation isCalloc align size) session =
      .ok (.pointer (some pointer), session')) :
    ∃ s₁ heap heap' place s', Serves total memory { session with allocator := s₁ } heap ∧
      pointer = s₁.unit (place + headerSize) ∧ session' = session.allocated (some pointer) s' ∧
      Effect total heap heap' none (some (place, size + headerSize)) s₁ s' ∧
      Returned align size place (decide (s₁.allocatedSpace > place + headerSize) && isCalloc) s₁ s' := by
  rcases sound.turn lawful (allocation_permitted isCalloc align size session)
      (allocation_copies E isCalloc align size session) ran with
    ⟨-, -, impossible, -⟩ | ⟨s₁, heap, heap', -, serves₁, turn, -⟩
  · cases impossible
  · obtain ⟨place, s', rfl, rfl, effect, returned⟩ := turn.returned
    exact ⟨s₁, heap, heap', place, s', serves₁, rfl, rfl, effect, returned⟩

theorem Sound.allotted (lawful : E.Lawful build.target total) (sound : Sound total memory session)
    {isCalloc : Bool} {align size pointer : Nat}
    (ran : step E (Op.allocation isCalloc align size) session =
      .ok (.pointer (some pointer), session')) :
    session'.live session.calls = some pointer ∧ pointer % Size.bytes align = 0 ∧
      usableSizeImpl build pointer session'.allocator = .ok (size, session'.allocator) := by
  obtain ⟨s₁, heap, heap', place, s', -, rfl, rfl, effect, returned⟩ := sound.returned lawful ran
  have here : heap'.Allots place (size + headerSize) := (effect.allots _ _).mpr (Or.inl rfl)
  have usable := usableSizeImpl_ok effect.represents here
  rw [effect.keeps.unit, Nat.add_sub_cancel] at usable
  exact ⟨Function.update_self _ _ _, returned.aligned, usable⟩

theorem Sound.granted (lawful : E.Lawful build.target total) (sound : Sound total memory session)
    {isCalloc : Bool} {align size pointer : Nat}
    (ran : step E (Op.allocation isCalloc align size) session =
      .ok (.pointer (some pointer), session')) :
    session'.live session.calls = some pointer ∧ pointer % Size.bytes align = 0 ∧
      usableSize build pointer session'.allocator = .ok (Size.bytes size, session'.allocator) := by
  obtain ⟨live, aligned, usable⟩ := sound.allotted lawful ran
  refine ⟨live, aligned, ?_⟩
  rw [usableSize, bind_ok usable]
  rfl

theorem Sound.kept (lawful : E.Lawful build.target total) (sound : Sound total memory session)
    (permitted : Permitted op session) (copies : Copies E op session)
    (ran : step E op session = .ok (outcome, session')) {handle pointer length : Nat}
    (other : ¬ op.Resizes handle) (live : session.live handle = some pointer)
    (sized : usableSize build pointer session.allocator = .ok (length, session.allocator)) :
    session'.live handle = some pointer ∧
      usableSize build pointer session'.allocator = .ok (length, session'.allocator) := by
  rcases sound with idle | ⟨heap, serves⟩
  · rw [idle.live handle] at live
    cases live
  obtain ⟨heap', turn, serves'⟩ := serves.turn lawful.constant permitted copies ran
  obtain ⟨place, size, here, -, -, rfl, usable⟩ := serves.usable live
  cases sized.symm.trans usable
  by_cases about : op.handle = some handle
  · obtain ⟨index, byte, rfl⟩ := handle_written about other
    obtain ⟨rfl, rebound⟩ := turn.written live
    have base : session'.allocator.baseAddress = session.allocator.baseAddress := by
      rw [rebound]
      rfl
    have usable' := usableSize_ok serves'.represents here
    rw [State.unit, base, ← State.unit] at usable'
    exact ⟨by rw [rebound]; exact Function.update_self _ _ _, usable'⟩
  · obtain ⟨kept, stays⟩ := turn.stays serves about live here
    have usable' := usableSize_ok serves'.represents stays.allots
    rw [State.unit, stays.base, ← State.unit] at usable'
    exact ⟨kept.trans live, usable'⟩

end Turns

section Contract

/-- In every session, payloads stay apart and sizes as they are asked for. -/
theorem allocation_contract (lawful : E.Lawful build.target total)
    (inplace : build.reallocInplace = true) (reached : Reached build E memory session) :
    Contract E total session := by
  have sound := reached.sound lawful inplace
  constructor
  · exact sound.apart
  · intro isCalloc align size session' pointer ran
    exact sound.granted lawful ran
  · intro op outcome session' permitted ran handle pointer length other live sized
    exact sound.kept lawful permitted (copies_inplace inplace op session) ran other live sized

theorem allocation_contract_sample : ∃ session pointer outcome,
    step sampleEnv (.alloc 1 2) sampleStart = .ok (outcome, session) ∧
      session.live 0 = some pointer ∧ Contract sampleEnv 8 session := by
  obtain ⟨session, pointer, outcome, run, live, reached⟩ := sample_allocated
  exact ⟨session, pointer, outcome, run, live, allocation_contract sample_lawful rfl reached⟩

end Contract

end Picoalloc
