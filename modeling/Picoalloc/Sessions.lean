import Picoalloc.Effects

/-!
Sessions: a client calls the operations in any order, names its pointers by the
number of the call that produced them and writes to the payloads it owns. What was
last written to each payload is kept beside the state, to compare the memory with.
-/

namespace Picoalloc
open CheckedMachine ByteMemory Tilings

inductive Op where
  | alloc (align size : Nat)
  | allocZeroed (align size : Nat)
  | free (handle : Nat)
  | shrinkInplace (handle newSize : Nat)
  | growInplace (handle newSize : Nat)
  | realloc (handle align newSize : Nat)
  | write (handle index : Nat) (byte : UInt8)
  deriving DecidableEq, Repr

inductive Outcome where
  | done
  | pointer (pointer : Option Nat)
  | usable (size : Option Nat)
  deriving DecidableEq, Repr

def State.poke {width : Nat} {σ : Type} (address : Nat) (byte : UInt8) (s : State width σ) :
    State width σ :=
  { s with memory := Function.update s.memory address byte }

structure Session (build : Build) (σ : Type) where
  allocator : AllocatorState build σ
  live : Nat → Option Nat
  written : Nat → Nat → Option UInt8
  calls : Nat

namespace Session

variable {build : Build} {σ : Type}

def start (build : Build) (env : σ) (memory : Memory) : Session build σ :=
  { allocator := Allocator.new build env memory
    live := fun _ => none
    written := fun _ _ => none
    calls := 0 }

def rebind (handle : Nat) (pointer : Option Nat) (contents : Nat → Option UInt8)
    (allocator : AllocatorState build σ) (session : Session build σ) : Session build σ :=
  { session with
    allocator
    live := Function.update session.live handle pointer
    written := Function.update session.written handle contents }

def prefixOf (handle length : Nat) (session : Session build σ) (index : Nat) : Option UInt8 :=
  if index < length then session.written handle index else none

/-- An allocation call, whose pointer goes by the number of the call. -/
def allocated (pointer : Option Nat) (allocator : AllocatorState build σ)
    (session : Session build σ) : Session build σ :=
  rebind session.calls pointer (fun _ => none) allocator { session with calls := session.calls + 1 }

def released (handle : Nat) (allocator : AllocatorState build σ) (session : Session build σ) :
    Session build σ :=
  session.rebind handle none (fun _ => none) allocator

/-- The call on the pointer of a handle. A dead handle has none to pass. -/
def onLive (handle : Nat) (session : Session build σ)
    (call : Nat → Checked (Outcome × Session build σ)) : Checked (Outcome × Session build σ) :=
  match session.live handle with
  | none => .ok (.done, session)
  | some pointer => call pointer

end Session

variable {build : Build} {σ : Type} (E : Env σ)

def step (op : Op) (session : Session build σ) : Checked (Outcome × Session build σ) :=
  match op with
  | .alloc align size => do
      let (pointer, allocator) ← alloc build E align size session.allocator
      return (.pointer pointer, session.allocated pointer allocator)
  | .allocZeroed align size => do
      let (pointer, allocator) ← allocZeroed build E align size session.allocator
      return (.pointer pointer, session.allocated pointer allocator)
  | .free handle => session.onLive handle fun pointer => do
      let (_, allocator) ← free build E pointer session.allocator
      return (.done, session.released handle allocator)
  | .shrinkInplace handle newSize => session.onLive handle fun pointer => do
      let (_, allocator) ← shrinkInplace build E pointer newSize session.allocator
      if newSize = 0 then
        return (.done, session.released handle allocator)
      else
        return (.done, session.rebind handle (some pointer) (session.prefixOf handle (32 * newSize))
          allocator)
  | .growInplace handle newSize => session.onLive handle fun pointer => do
      let (size, allocator) ← growInplace build E pointer newSize session.allocator
      return (.usable size, { session with allocator })
  | .realloc handle align newSize => session.onLive handle fun pointer => do
      let (result, allocator) ← realloc build E pointer align newSize session.allocator
      match result with
      | some moved => return (.pointer result,
          session.rebind handle (some moved) (session.prefixOf handle (32 * newSize)) allocator)
      | none =>
          if newSize = 0 then
            return (.pointer none, session.released handle allocator)
          else
            return (.pointer none, { session with allocator })
  | .write handle index byte => session.onLive handle fun pointer =>
      .ok (.done,
        session.rebind handle (some pointer) (Function.update (session.written handle) index (some byte))
          (session.allocator.poke (pointer + index) byte))

theorem onLive_done {handle : Nat} {session session' : Session build σ} {outcome : Outcome}
    {call : Nat → Checked (Outcome × Session build σ)}
    (ran : session.onLive handle call = .ok (outcome, session')) :
    session' = session ∨
      ∃ pointer, session.live handle = some pointer ∧ call pointer = .ok (outcome, session') := by
  rw [Session.onLive] at ran
  split at ran
  · cases ran
    exact Or.inl rfl
  · next pointer live => exact Or.inr ⟨pointer, live, ran⟩

section Readings

variable {E} {handle pointer newSize align : Nat} {session : Session build σ}
  {s' : AllocatorState build σ}

theorem step_free (live : session.live handle = some pointer)
    (run : free build E pointer session.allocator = .ok ((), s')) :
    step E (.free handle) session = .ok (.done, session.released handle s') := by
  simp only [step, Session.onLive, live, run]
  rfl

theorem step_shrink (live : session.live handle = some pointer)
    (run : shrinkInplace build E pointer newSize session.allocator = .ok ((), s')) :
    step E (.shrinkInplace handle newSize) session =
      .ok (.done, if newSize = 0 then session.released handle s'
        else session.rebind handle (some pointer) (session.prefixOf handle (32 * newSize)) s') := by
  simp only [step, Session.onLive, live, run]
  by_cases empty : newSize = 0
  · rw [if_pos empty]
    exact if_pos empty
  · rw [if_neg empty]
    exact if_neg empty

theorem step_grow {usable : Option Nat} (live : session.live handle = some pointer)
    (run : growInplace build E pointer newSize session.allocator = .ok (usable, s')) :
    step E (.growInplace handle newSize) session =
      .ok (.usable usable, { session with allocator := s' }) := by
  simp only [step, Session.onLive, live, run]
  rfl

theorem step_moved {moved : Nat} (live : session.live handle = some pointer)
    (run : realloc build E pointer align newSize session.allocator = .ok (some moved, s')) :
    step E (.realloc handle align newSize) session = .ok (.pointer (some moved),
      session.rebind handle (some moved) (session.prefixOf handle (32 * newSize)) s') := by
  simp only [step, Session.onLive, live, run]
  rfl

theorem step_unmoved (live : session.live handle = some pointer)
    (run : realloc build E pointer align newSize session.allocator = .ok (none, s')) :
    step E (.realloc handle align newSize) session = .ok (.pointer none,
      if newSize = 0 then session.released handle s' else { session with allocator := s' }) := by
  simp only [step, Session.onLive, live, run]
  by_cases empty : newSize = 0
  · rw [if_pos empty]
    exact if_pos empty
  · rw [if_neg empty]
    exact if_neg empty

end Readings

/-- What a client may do: pass live pointers, shrink to less than the largest `Size`
and write to the bytes that `usable_size` says it has. -/
def Permitted (op : Op) (session : Session build σ) : Prop :=
  match op with
  | .alloc _ _ | .allocZeroed _ _ => True
  | .free handle | .growInplace handle _ | .realloc handle _ _ => session.live handle ≠ none
  | .shrinkInplace handle newSize => session.live handle ≠ none ∧ newSize < 2 ^ sizeBits - 1
  | .write handle index _ => ∃ pointer length, session.live handle = some pointer ∧
      usableSize build pointer session.allocator = .ok (length, session.allocator) ∧ index < length

/-- A `realloc` does not copy more than it allocates. -/
def Copies (op : Op) (session : Session build σ) : Prop :=
  match op with
  | .realloc handle align newSize => ∀ pointer usable, session.live handle = some pointer →
      usableSizeImpl build pointer session.allocator = .ok (usable, session.allocator) →
      Covered build E session.allocator align newSize usable
  | _ => True

/-- The sessions over a memory that permitted calls lead to. -/
abbrev Reached (build : Build) (E : Env σ) (memory : Memory) : Session build σ → Prop :=
  Reachable (fun session => ∃ env, session = Session.start build env memory) Permitted (step E)

abbrev CoveredReached (build : Build) (E : Env σ) (memory : Memory) : Session build σ → Prop :=
  Reachable (fun session => ∃ env, session = Session.start build env memory)
    (fun op session => Permitted op session ∧ Copies E op session) (step E)

section Invariant

variable {total : Nat} {memory : Memory} {session : Session build σ} {heap : Heap}

/-- The live handles and the allocated chunks correspond, payloads hold what was written
to them and nothing behind the allocated space was touched. -/
structure Serves (total : Nat) (memory : Memory) (session : Session build σ) (heap : Heap) : Prop where
  represents : Represents total session.allocator heap
  held : ∀ handle pointer, session.live handle = some pointer →
    ∃ place size, heap.Allots place size ∧ pointer = session.allocator.unit (place + headerSize)
  owned : ∀ place size, heap.Allots place size →
    ∃ handle, session.live handle = some (session.allocator.unit (place + headerSize))
  distinct : ∀ handle handle' pointer, session.live handle = some pointer →
    session.live handle' = some pointer → handle = handle'
  numbered : ∀ handle, session.live handle ≠ none → handle < session.calls
  contents : ∀ handle place size index byte, heap.Allots place size →
    session.live handle = some (session.allocator.unit (place + headerSize)) →
    session.written handle index = some byte → index < 32 * (size - headerSize) ∧
      session.allocator.memory (session.allocator.unit (place + headerSize) + index) = byte
  fresh : ∀ a, session.allocator.unit session.allocator.allocatedSpace ≤ a →
    session.allocator.memory a = memory a

structure Idle (total : Nat) (memory : Memory) (session : Session build σ) : Prop where
  untouched : Uninitialized total session.allocator
  live : ∀ handle, session.live handle = none
  memory_eq : session.allocator.memory = memory

def Sound (total : Nat) (memory : Memory) (session : Session build σ) : Prop :=
  Idle total memory session ∨ ∃ heap, Serves total memory session heap

def payloadOf (session : Session build σ) (chunk : Nat × Nat) : Nat :=
  session.allocator.unit (chunk.1 + headerSize)

theorem Serves.calls (serves : Serves total memory session heap) {calls : Nat}
    (later : session.calls ≤ calls) : Serves total memory { session with calls } heap :=
  { serves with numbered := fun handle live => (serves.numbered handle live).trans_le later }

theorem Serves.unchanged {s' : AllocatorState build σ} (serves : Serves total memory session heap)
    (unchanged : Unchanged session.allocator s') (represents : Represents total s' heap) :
    Serves total memory { session with allocator := s' } heap where
  represents := represents
  held handle pointer live := by
    obtain ⟨place, size, here, rfl⟩ := serves.held handle pointer live
    exact ⟨place, size, here, (unchanged.unit _).symm⟩
  owned place size here := by
    simp only [unchanged.unit]
    exact serves.owned place size here
  distinct := serves.distinct
  numbered := serves.numbered
  contents handle place size index byte here live wrote := by
    simp only [unchanged.unit, unchanged.memory] at live ⊢
    exact serves.contents handle place size index byte here live wrote
  fresh a behind := by
    rw [unchanged.memory]
    simp only [unchanged.unit, unchanged.allocatedSpace] at behind
    exact serves.fresh a behind

section Rebinding

variable {heap' : Heap} {old new : Option (Nat × Nat)} {s' : AllocatorState build σ}
  {handle other pointer : Nat} {contents : Nat → Option UInt8} {index : Nat} {byte : UInt8}

theorem Serves.elsewhere (serves : Serves total memory session heap)
    (was : session.live handle = old.map (payloadOf session)) (different : other ≠ handle)
    (live : session.live other = some pointer) :
    ∃ place size, heap.Rest old place size ∧ pointer = session.allocator.unit (place + headerSize) := by
  obtain ⟨place, size, here, rfl⟩ := serves.held other pointer live
  refine ⟨place, size, ⟨here, fun chunk member same => different ?_⟩, rfl⟩
  refine serves.distinct other handle _ live ?_
  rw [was, same, Option.mem_def.mp member]
  rfl

theorem Serves.unshared (serves : Serves total memory session heap)
    (effect : Effect total heap heap' old new session.allocator s')
    (was : session.live handle = old.map (payloadOf session)) (different : other ≠ handle)
    (live : session.live other = some pointer) : new.map (payloadOf session) ≠ some pointer := by
  intro same
  obtain ⟨chunk, member, rfl⟩ := Option.map_eq_some_iff.mp same
  obtain ⟨place, size, rest, equal⟩ := serves.elsewhere was different live
  refine effect.fresh chunk member place size rest ?_
  simp only [payloadOf, unit_inj] at equal
  omega

theorem Serves.inherited (serves : Serves total memory session heap)
    (effect : Effect total heap heap' old new session.allocator s')
    (held : ∀ chunk ∈ old, heap.Allots chunk.1 chunk.2)
    (was : session.live handle = old.map (payloadOf session))
    (inherits : ∀ index byte, contents index = some byte → ∃ chunk ∈ old,
      session.written handle index = some byte ∧
        ∀ chunk' ∈ new, index < 32 * (chunk.2 - headerSize) → index < 32 * (chunk'.2 - headerSize))
    {chunk' : Nat × Nat} (member' : chunk' ∈ new) (wrote : contents index = some byte) :
    index < 32 * (chunk'.2 - headerSize) ∧
      s'.memory (session.allocator.unit (chunk'.1 + headerSize) + index) = byte := by
  obtain ⟨chunk, member, wrote, fits⟩ := inherits index byte wrote
  have live : session.live handle = some (session.allocator.unit (chunk.1 + headerSize)) := by
    rw [was, Option.mem_def.mp member]
    rfl
  obtain ⟨inside, value⟩ :=
    serves.contents handle chunk.1 chunk.2 index byte (held chunk member) live wrote
  have inside' := fits chunk' member' inside
  exact ⟨inside', (effect.carried chunk member chunk' member' index (by omega)).trans value⟩

theorem Serves.undisturbed {place size : Nat} (serves : Serves total memory session heap)
    (effect : Effect total heap heap' old new session.allocator s') (rest : heap.Rest old place size)
    (live : session.live other = some (session.allocator.unit (place + headerSize)))
    (wrote : session.written other index = some byte) : index < 32 * (size - headerSize) ∧
      s'.memory (session.allocator.unit (place + headerSize) + index) = byte := by
  obtain ⟨inside, value⟩ := serves.contents other place size index byte rest.1 live wrote
  refine ⟨inside, (effect.keeps.payload place size _ rest (Nat.le_add_right _ _) ?_).trans value⟩
  simp only [State.unit, headerSize] at *
  omega

/-- An effect on the chunk of one handle, or on none for a handle that is not live. -/
theorem Serves.effect (serves : Serves total memory session heap)
    (effect : Effect total heap heap' old new session.allocator s')
    (held : ∀ chunk ∈ old, heap.Allots chunk.1 chunk.2)
    (was : session.live handle = old.map (payloadOf session)) (numbered : handle < session.calls)
    (inherits : ∀ index byte, contents index = some byte → ∃ chunk ∈ old,
      session.written handle index = some byte ∧
        ∀ chunk' ∈ new, index < 32 * (chunk.2 - headerSize) → index < 32 * (chunk'.2 - headerSize)) :
    Serves total memory (session.rebind handle (new.map (payloadOf session)) contents s') heap' := by
  have unit := effect.keeps.unit
  have rebound : ∀ other, other ≠ handle →
      Function.update session.live handle (new.map (payloadOf session)) other = session.live other :=
    fun other different => Function.update_of_ne different _ _
  have bound : Function.update session.live handle (new.map (payloadOf session)) handle =
      new.map (payloadOf session) := Function.update_self _ _ _
  -- Every field is about one handle: that of the effect, or another one.
  refine ⟨effect.represents, fun other pointer live => ?_, fun place size here => ?_,
    fun other other' pointer live live' => ?_, fun other live => ?_,
    fun other place size index byte here live wrote => ?_, fun a behind => ?_⟩
  · simp only [Session.rebind] at live
    by_cases same : other = handle
    · rw [same, bound] at live
      obtain ⟨chunk, member, rfl⟩ := Option.map_eq_some_iff.mp live
      exact ⟨chunk.1, chunk.2, (effect.allots _ _).mpr (Or.inl member), (unit _).symm⟩
    · rw [rebound other same] at live
      obtain ⟨place, size, rest, rfl⟩ := serves.elsewhere was same live
      exact ⟨place, size, (effect.allots _ _).mpr (Or.inr rest), (unit _).symm⟩
  · simp only [Session.rebind, unit]
    rcases (effect.allots place size).mp here with rfl | rest
    · exact ⟨handle, bound⟩
    · obtain ⟨other, live⟩ := serves.owned place size rest.1
      refine ⟨other, (rebound other ?_).trans live⟩
      rintro rfl
      rw [was] at live
      obtain ⟨chunk, member, equal⟩ := Option.map_eq_some_iff.mp live
      simp only [payloadOf, unit_inj] at equal
      exact rest.2 chunk member (by omega)
  · simp only [Session.rebind] at live live'
    by_cases same : other = handle <;> by_cases same' : other' = handle
    · rw [same, same']
    · rw [rebound other' same'] at live'
      rw [same, bound] at live
      exact absurd live (serves.unshared effect was same' live')
    · rw [rebound other same] at live
      rw [same', bound] at live'
      exact absurd live' (serves.unshared effect was same live)
    · rw [rebound other same] at live
      rw [rebound other' same'] at live'
      exact serves.distinct other other' pointer live live'
  · simp only [Session.rebind] at live ⊢
    by_cases same : other = handle
    · rw [same]
      exact numbered
    · rw [rebound other same] at live
      exact serves.numbered other live
  · simp only [Session.rebind, unit] at live wrote ⊢
    by_cases same : other = handle
    · subst same
      rw [bound] at live
      obtain ⟨chunk', member', equal⟩ := Option.map_eq_some_iff.mp live
      simp only [payloadOf, unit_inj] at equal
      obtain rfl : place = chunk'.1 := by omega
      obtain rfl : size = chunk'.2 := effect.represents.valid.allots_unique here
        ((effect.allots _ _).mpr (Or.inl member'))
      rw [Function.update_self] at wrote
      exact serves.inherited effect held was inherits member' wrote
    · rw [rebound other same] at live
      rw [Function.update_of_ne same] at wrote
      obtain ⟨place', size', rest, equal⟩ := serves.elsewhere was same live
      simp only [unit_inj] at equal
      obtain rfl : place = place' := by omega
      obtain rfl : size = size' := effect.represents.valid.allots_unique here
        ((effect.allots _ _).mpr (Or.inr rest))
      exact serves.undisturbed effect rest live wrote
  · simp only [Session.rebind, unit] at behind ⊢
    rw [effect.keeps.beyond a behind]
    refine serves.fresh a ?_
    have grown := effect.keeps.grown
    simp only [State.unit] at *
    omega

end Rebinding

end Invariant

def Op.allocation (isCalloc : Bool) (align size : Nat) : Op :=
  if isCalloc then .allocZeroed align size else .alloc align size

theorem allocation_permitted (isCalloc : Bool) (align size : Nat) (session : Session build σ) :
    Permitted (Op.allocation isCalloc align size) session := by
  cases isCalloc <;> trivial

theorem allocation_copies (isCalloc : Bool) (align size : Nat) (session : Session build σ) :
    Copies E (Op.allocation isCalloc align size) session := by
  cases isCalloc <;> trivial

theorem allocation_reads (isCalloc : Bool) (align size : Nat) (session : Session build σ) :
    step E (Op.allocation isCalloc align size) session = (do
      let (pointer, allocator) ← allocImpl build E align size isCalloc session.allocator
      return (.pointer pointer, session.allocated pointer allocator)) := by
  cases isCalloc <;> rfl

inductive Turn (total : Nat) (session : Session build σ) (heap : Heap) :
    Op → Outcome → Session build σ → Heap → Prop where
  | granted {op align size place isCalloc s' heap'} (call : op = Op.allocation isCalloc align size)
      (effect : Effect total heap heap' none (some (place, size + headerSize)) session.allocator s')
      (returned : Returned align size place
        (decide (session.allocator.allocatedSpace > place + headerSize) && isCalloc)
        session.allocator s') :
      Turn total session heap op
        (.pointer (some (session.allocator.unit (place + headerSize))))
        (session.allocated (some (session.allocator.unit (place + headerSize))) s') heap'
  | refused {op align size isCalloc s'} (call : op = Op.allocation isCalloc align size)
      (unchanged : Unchanged session.allocator s') :
      Turn total session heap op (.pointer none) (session.allocated none s') heap
  | freed {op outcome handle place size s' heap'} (here : heap.Allots place size)
      (live : session.live handle = some (session.allocator.unit (place + headerSize)))
      (call : (op = .free handle ∨ op = .shrinkInplace handle 0) ∧ outcome = .done ∨
        ∃ align, op = .realloc handle align 0 ∧ outcome = .pointer none)
      (effect : Effect total heap heap' (some (place, size)) none session.allocator s') :
      Turn total session heap op outcome (session.released handle s') heap'
  | shrunk {handle place size newSize s' heap'} (here : heap.Allots place size)
      (live : session.live handle = some (session.allocator.unit (place + headerSize)))
      (nonempty : newSize ≠ 0)
      (effect : Effect total heap heap' (some (place, size))
        (some (place, min size (newSize + headerSize))) session.allocator s') :
      Turn total session heap (.shrinkInplace handle newSize) .done
        (session.rebind handle (some (session.allocator.unit (place + headerSize)))
          (session.prefixOf handle (32 * newSize)) s') heap'
  | grown {handle place size newSize s' heap'} (here : heap.Allots place size)
      (live : session.live handle = some (session.allocator.unit (place + headerSize)))
      (effect : Effect total heap heap' (some (place, size))
        (some (place, max (size - headerSize) newSize + headerSize)) session.allocator s') :
      Turn total session heap (.growInplace handle newSize)
        (.usable (some (max (size - headerSize) newSize))) { session with allocator := s' } heap'
  | moved {handle align place size place' newSize s' heap'} (here : heap.Allots place size)
      (live : session.live handle = some (session.allocator.unit (place + headerSize)))
      (effect : Effect total heap heap' (some (place, size)) (some (place', newSize + headerSize))
        session.allocator s') :
      Turn total session heap (.realloc handle align newSize)
        (.pointer (some (session.allocator.unit (place' + headerSize))))
        (session.rebind handle (some (session.allocator.unit (place' + headerSize)))
          (session.prefixOf handle (32 * newSize)) s') heap'
  | failed {op outcome handle newSize s'} (live : session.live handle ≠ none)
      (call : op = .growInplace handle newSize ∧ outcome = .usable none ∨
        ∃ align, op = .realloc handle align newSize ∧ outcome = .pointer none ∧ newSize ≠ 0)
      (unchanged : Unchanged session.allocator s') :
      Turn total session heap op outcome { session with allocator := s' } heap
  | wrote {handle index byte place size} (here : heap.Allots place size)
      (live : session.live handle = some (session.allocator.unit (place + headerSize)))
      (inside : index < 32 * (size - headerSize)) :
      Turn total session heap (.write handle index byte) .done
        (session.rebind handle (some (session.allocator.unit (place + headerSize)))
          (Function.update (session.written handle) index (some byte))
          (session.allocator.poke (session.allocator.unit (place + headerSize) + index) byte)) heap

section Steps

variable {E} {total : Nat} {memory : Memory} {session : Session build σ} {heap : Heap}

theorem usableSize_ok {s : AllocatorState build σ} {place size : Nat} (represents : Represents total s heap)
    (here : heap.Allots place size) :
    usableSize build (s.unit (place + headerSize)) s = .ok (32 * (size - headerSize), s) := by
  have granted : place + size ≤ s.allocatedSpace := (represents.materialized here).2 rfl
  have within := represents.placed.within
  have limit : total < 2 ^ 27 := represents.placed.small
  rw [usableSize, bind_ok (usableSizeImpl_ok represents here),
    bytes_eq (by simp only [unitLimit]; omega)]
  rfl

theorem Serves.idle_handle (serves : Serves total memory session heap) :
    session.live session.calls = none := by
  by_contra live
  exact absurd (serves.numbered _ live) (Nat.lt_irrefl _)

theorem Serves.granted {heap' : Heap} {s' : AllocatorState build σ} {place size : Nat}
    (serves : Serves total memory session heap)
    (effect : Effect total heap heap' none (some (place, size)) session.allocator s') :
    Serves total memory
      (session.allocated (some (session.allocator.unit (place + headerSize))) s') heap' :=
  (serves.calls (Nat.le_succ _)).effect effect (fun _ member => nomatch member) serves.idle_handle
    (Nat.lt_succ_self _) (fun _ _ impossible => nomatch impossible)

theorem Serves.refused {s' : AllocatorState build σ} (serves : Serves total memory session heap)
    (unchanged : Unchanged session.allocator s') (represents : Represents total s' heap) :
    Serves total memory (session.allocated none s') heap :=
  (serves.calls (Nat.le_succ _)).effect (Effect.none represents unchanged)
    (fun _ member => nomatch member) serves.idle_handle (Nat.lt_succ_self _)
    (fun _ _ impossible => nomatch impossible)

theorem Serves.released {heap' : Heap} {s' : AllocatorState build σ} {handle place size : Nat}
    (serves : Serves total memory session heap) (here : heap.Allots place size)
    (live : session.live handle = some (session.allocator.unit (place + headerSize)))
    (effect : Effect total heap heap' (some (place, size)) none session.allocator s') :
    Serves total memory (session.released handle s') heap' :=
  serves.effect effect (by rintro _ ⟨⟩; exact here) live
    (serves.numbered handle (by rw [live]; exact Option.some_ne_none _))
    (fun _ _ impossible => nomatch impossible)

theorem Serves.replaced {heap' : Heap} {s' : AllocatorState build σ}
    {handle place size place' size' length : Nat} (serves : Serves total memory session heap)
    (here : heap.Allots place size)
    (live : session.live handle = some (session.allocator.unit (place + headerSize)))
    (effect : Effect total heap heap' (some (place, size)) (some (place', size')) session.allocator s')
    (fits : ∀ index < length, index < 32 * (size - headerSize) → index < 32 * (size' - headerSize)) :
    Serves total memory (session.rebind handle (some (session.allocator.unit (place' + headerSize)))
      (session.prefixOf handle length) s') heap' := by
  refine serves.effect effect (by rintro _ ⟨⟩; exact here) live
    (serves.numbered handle (by rw [live]; exact Option.some_ne_none _)) fun index byte wrote => ?_
  rw [Session.prefixOf] at wrote
  split at wrote
  · next inside =>
      exact ⟨_, rfl, wrote, by rintro _ ⟨⟩; exact fits index inside⟩
  · cases wrote

theorem Serves.grown {heap' : Heap} {s' : AllocatorState build σ} {handle place size size' : Nat}
    (serves : Serves total memory session heap) (here : heap.Allots place size)
    (live : session.live handle = some (session.allocator.unit (place + headerSize)))
    (order : size ≤ size')
    (effect : Effect total heap heap' (some (place, size)) (some (place, size')) session.allocator s') :
    Serves total memory { session with allocator := s' } heap' := by
  have inherits : ∀ index byte, session.written handle index = some byte →
      ∃ chunk ∈ some (place, size), session.written handle index = some byte ∧
        ∀ chunk' ∈ some (place, size'), index < 32 * (chunk.2 - headerSize) →
          index < 32 * (chunk'.2 - headerSize) := fun index byte wrote =>
    ⟨_, rfl, wrote, by rintro _ ⟨⟩ inside; simp only [headerSize] at *; omega⟩
  have rebound := serves.effect effect (by rintro _ ⟨⟩; exact here) live
    (serves.numbered handle (by rw [live]; exact Option.some_ne_none _)) inherits
  have same : Function.update session.live handle ((some (place, size')).map (payloadOf session)) =
      session.live := by
    rw [show (some (place, size')).map (payloadOf session) = session.live handle from live.symm,
      Function.update_eq_self]
  rwa [Session.rebind, same, Function.update_eq_self] at rebound

theorem poke_overwritten (s : AllocatorState build σ) (place : Nat) {size index : Nat}
    (inside : index < 32 * (size - headerSize)) (byte : UInt8) :
    Overwritten place size s (s.poke (s.unit (place + headerSize) + index) byte) := by
  refine ⟨rfl, rfl, rfl, rfl, rfl, rfl, fun a changed => ?_⟩
  obtain rfl : a = s.unit (place + headerSize) + index := by
    by_contra other
    exact changed (Function.update_of_ne other _ _)
  simp only [State.unit, headerSize] at *
  omega

theorem Serves.wrote {handle place size index : Nat} (serves : Serves total memory session heap)
    (here : heap.Allots place size)
    (live : session.live handle = some (session.allocator.unit (place + headerSize)))
    (inside : index < 32 * (size - headerSize)) (byte : UInt8) :
    Serves total memory
      (session.rebind handle (some (session.allocator.unit (place + headerSize)))
        (Function.update (session.written handle) index (some byte))
        (session.allocator.poke (session.allocator.unit (place + headerSize) + index) byte)) heap := by
  have written := poke_overwritten session.allocator place inside byte
  have keeps := written.keeps here ((serves.represents.materialized here).2 rfl)
  have same : Function.update session.live handle
      (some (session.allocator.unit (place + headerSize))) = session.live := by
    rw [← live, Function.update_eq_self]
  refine ⟨serves.represents.overwritten here written, ?_, ?_, ?_, ?_, ?_, fun a behind => ?_⟩
  -- No pointer changes, so that only the bytes of the one payload are to be looked at.
  all_goals simp only [Session.rebind, same, written.unit]
  · exact serves.held
  · exact serves.owned
  · exact serves.distinct
  · exact serves.numbered
  · intro other place' size' index' byte' here' live' wrote
    by_cases mine : other = handle
    · subst mine
      obtain rfl : place' = place := by
        have equal := Option.some.inj (live'.symm.trans live)
        simp only [unit_inj] at equal
        omega
      obtain rfl := serves.represents.valid.allots_unique here' here
      rw [Function.update_self] at wrote
      by_cases here'' : index' = index
      · subst here''
        rw [Function.update_self] at wrote
        exact ⟨inside, (Function.update_self _ _ _).trans (Option.some.inj wrote)⟩
      · rw [Function.update_of_ne here''] at wrote
        obtain ⟨inside', value⟩ := serves.contents other place' size' index' byte' here' live' wrote
        exact ⟨inside', (Function.update_of_ne (by omega) _ _).trans value⟩
    · rw [Function.update_of_ne mine] at wrote
      obtain ⟨inside', value⟩ := serves.contents other place' size' index' byte' here' live' wrote
      refine ⟨inside', (keeps.payload place' size' _ ⟨here', ?_⟩ (Nat.le_add_right _ _) ?_).trans value⟩
      · rintro rfl
        exact mine (serves.distinct other handle _ live' live)
      · simp only [State.unit, headerSize] at *
        omega
  · simp only [Session.rebind, written.unit, written.allocatedSpace] at behind
    rw [keeps.beyond a (by rwa [written.allocatedSpace])]
    exact serves.fresh a behind

theorem Serves.chunk (serves : Serves total memory session heap) {handle : Nat}
    (live : session.live handle ≠ none) : ∃ place size, heap.Allots place size ∧
      session.live handle = some (session.allocator.unit (place + headerSize)) := by
  obtain ⟨pointer, here⟩ := Option.ne_none_iff_exists'.mp live
  obtain ⟨place, size, allots, rfl⟩ := serves.held handle pointer here
  exact ⟨place, size, allots, here⟩

theorem step_allocation (constant : ∀ e, E.totalSpace e = total)
    (serves : Serves total memory session heap) (isCalloc : Bool) (align size : Nat) :
    ∃ outcome session' heap', step E (Op.allocation isCalloc align size) session =
        .ok (outcome, session') ∧
      Turn total session heap (Op.allocation isCalloc align size) outcome session' heap' ∧
      Serves total memory session' heap' := by
  obtain ⟨result, s', run, effect⟩ := allocImpl_effect (E := E) constant serves.represents isCalloc align size
  have reading : step E (Op.allocation isCalloc align size) session =
      .ok (.pointer result, session.allocated result s') := by
    rw [allocation_reads, run]
    rfl
  cases result with
  | none => exact ⟨_, _, heap, reading, .refused rfl effect.1, serves.refused effect.1 effect.2⟩
  | some pointer =>
      obtain ⟨heap', place, rfl, effect, returned⟩ := effect
      exact ⟨_, _, heap', reading, .granted rfl effect returned, serves.granted effect⟩

/-- Every permitted call on a served session goes through, and the session is served again. -/
theorem step_served (constant : ∀ e, E.totalSpace e = total)
    (serves : Serves total memory session heap) {op : Op} (permitted : Permitted op session)
    (copies : Copies E op session) :
    ∃ outcome session' heap', step E op session = .ok (outcome, session') ∧
      Turn total session heap op outcome session' heap' ∧ Serves total memory session' heap' := by
  have represents := serves.represents
  cases op with
  | alloc align size => exact step_allocation constant serves false align size
  | allocZeroed align size => exact step_allocation constant serves true align size
  | free handle =>
      obtain ⟨place, size, here, live⟩ := serves.chunk permitted
      obtain ⟨s', run, effect⟩ := free_effect (E := E) constant represents here
      exact ⟨.done, _, _, step_free live run, .freed here live (Or.inl ⟨Or.inl rfl, rfl⟩) effect,
        serves.released here live effect⟩
  | shrinkInplace handle newSize =>
      obtain ⟨place, size, here, live⟩ := serves.chunk permitted.1
      by_cases empty : newSize = 0
      · subst empty
        obtain ⟨s', run, effect⟩ := free_effect (E := E) constant represents here
        -- the source frees a chunk that is shrunk to nothing
        have shrunk : shrinkInplace build E (session.allocator.unit (place + headerSize)) 0
            session.allocator = .ok ((), s') := run
        exact ⟨.done, _, _, step_shrink live shrunk, .freed here live (Or.inl ⟨Or.inr rfl, rfl⟩) effect,
          serves.released here live effect⟩
      · obtain ⟨s', run, effect⟩ := shrinkInplace_effect (E := E) constant represents here empty
          (by have := permitted.2; simp only [headerSize]; omega)
        have reading := step_shrink live run
        rw [if_neg empty] at reading
        refine ⟨.done, _, _, reading, .shrunk here live empty effect,
          serves.replaced here live effect fun index inside _ => ?_⟩
        simp only [headerSize] at *
        omega
  | growInplace handle newSize =>
      obtain ⟨place, size, here, live⟩ := serves.chunk permitted
      obtain ⟨result, s', run, effect⟩ := growInplace_effect (E := E) constant represents here newSize
      have reading := step_grow live run
      cases result with
      | none => exact ⟨_, _, heap, reading, .failed permitted (Or.inl ⟨rfl, rfl⟩) effect.1,
          serves.unchanged effect.1 effect.2⟩
      | some usable =>
          obtain ⟨rfl, heap', effect⟩ := effect
          refine ⟨_, _, heap', reading, .grown here live effect, serves.grown here live ?_ effect⟩
          simp only [headerSize]
          omega
  | realloc handle align newSize =>
      obtain ⟨place, size, here, live⟩ := serves.chunk permitted
      have covered := copies _ _ live (usableSizeImpl_ok represents here)
      obtain ⟨result, s', run, effect⟩ := realloc_effect constant represents here covered
      cases result with
      | some pointer =>
          obtain ⟨heap', place', rfl, effect⟩ := effect
          exact ⟨_, _, heap', step_moved live run, .moved here live effect,
            serves.replaced here live effect fun index inside _ => inside⟩
      | none =>
          -- no pointer means a freed chunk or a failed move, and the size tells which
          simp only at effect
          by_cases empty : newSize = 0
          · rw [if_pos empty] at effect
            subst empty
            exact ⟨_, _, _, step_unmoved live run, .freed here live (Or.inr ⟨align, rfl, rfl⟩) effect,
              serves.released here live effect⟩
          · rw [if_neg empty] at effect
            have reading := step_unmoved live run
            rw [if_neg empty] at reading
            exact ⟨_, _, heap, reading, .failed permitted (Or.inr ⟨align, rfl, rfl, empty⟩) effect.1,
              serves.unchanged effect.1 effect.2⟩
  | write handle index byte =>
      obtain ⟨pointer, length, here', usable, inside⟩ := permitted
      obtain ⟨place, size, here, live⟩ := serves.chunk (by rw [here']; exact Option.some_ne_none _)
      obtain rfl := Option.some.inj (here'.symm.trans live)
      rw [usableSize_ok represents here] at usable
      obtain rfl : 32 * (size - headerSize) = length := by simpa using usable
      refine ⟨_, _, heap, ?_, .wrote here live inside, serves.wrote here live inside byte⟩
      simp only [step, Session.onLive, live]

theorem fresh_allots (target : Target) {place size : Nat} : ¬ (Heap.fresh target total).Allots place size := by
  simp [Heap.Allots, Heap.fresh, tileAt_cons]

theorem Idle.started {s₁ : AllocatorState build σ} (idle : Idle total memory session)
    (represents : Represents total s₁ (Heap.fresh build.target total))
    (frame : Frame (fun place => place = 0) (session.allocator.started E) s₁) :
    Serves total memory { session with allocator := s₁ } (Heap.fresh build.target total) where
  represents := represents
  held handle pointer live := by
    rw [show session.live handle = none from idle.live handle] at live
    cases live
  owned place size here := absurd here (fresh_allots build.target)
  distinct handle _ pointer live := by
    rw [show session.live handle = none from idle.live handle] at live
    cases live
  numbered handle live := absurd (idle.live handle) live
  contents _ place size _ _ here := absurd here (fresh_allots build.target)
  fresh a behind := by
    rw [← idle.memory_eq]
    refine (frame.kept fun place touched => Or.inr ?_ : s₁.memory a = _)
    have space : s₁.allocatedSpace = 1 := frame.allocatedSpace
    simp only [space, frame.unit] at behind
    simp only [touched, State.unit] at *
    omega

theorem step_idle (lawful : E.Lawful build.target total) (idle : Idle total memory session) {op : Op}
    (permitted : Permitted op session) :
    (∃ s', step E op session = .ok (.pointer none, session.allocated none s') ∧
        (s' = session.allocator ∨ s' = session.allocator.declined E) ∧
        Idle total memory (session.allocated none s')) ∨
      ∃ s₁, step E op session = step E op { session with allocator := s₁ } ∧
        Permitted op { session with allocator := s₁ } ∧
        Copies E op { session with allocator := s₁ } ∧
        Serves total memory { session with allocator := s₁ } (Heap.fresh build.target total) := by
  obtain ⟨isCalloc, align, size, rfl⟩ : ∃ isCalloc align size, op = Op.allocation isCalloc align size := by
    have dead : ∀ handle, session.live handle = none := idle.live
    cases op with
    | alloc align size => exact ⟨false, align, size, rfl⟩
    | allocZeroed align size => exact ⟨true, align, size, rfl⟩
    | free handle => exact absurd (dead handle) permitted
    | shrinkInplace handle _ => exact absurd (dead handle) permitted.1
    | growInplace handle _ => exact absurd (dead handle) permitted
    | realloc handle _ _ => exact absurd (dead handle) permitted
    | write handle _ _ =>
        obtain ⟨pointer, _, live, _⟩ := permitted
        rw [dead] at live
        cases live
  rcases allocImpl_first lawful idle.untouched align size isCalloc with
    ⟨s', run, which⟩ | ⟨s₁, represents, frame, same⟩
  · refine Or.inl ⟨s', ?_, which, ?_, fun handle => ?_, ?_⟩
    · rw [allocation_reads, run]
      rfl
    · rcases which with rfl | rfl
      · exact idle.untouched
      · exact declined_uninitialized lawful idle.untouched
    · by_cases new : handle = session.calls
      · rw [new]
        exact Function.update_self _ _ _
      · exact (Function.update_of_ne new _ _).trans (idle.live handle)
    · rcases which with rfl | rfl
      · exact idle.memory_eq
      · exact declined_memory.trans idle.memory_eq
  · refine Or.inr ⟨s₁, ?_, allocation_permitted isCalloc align size _,
      allocation_copies E isCalloc align size _, idle.started represents frame⟩
    rw [allocation_reads, allocation_reads, same]
    rfl

/-- Permitted and covered calls keep a session sound and do not fault. -/
theorem step_sound (lawful : E.Lawful build.target total) (sound : Sound total memory session) {op : Op}
    (permitted : Permitted op session) (copies : Copies E op session) :
    ∃ outcome session', step E op session = .ok (outcome, session') ∧ Sound total memory session' := by
  rcases sound with idle | ⟨heap, serves⟩
  · rcases step_idle lawful idle permitted with
      ⟨s', run, _, idle'⟩ | ⟨s₁, same, permitted₁, copies₁, serves₁⟩
    · exact ⟨_, _, run, Or.inl idle'⟩
    · obtain ⟨outcome, session', heap', run, _, serves'⟩ :=
        step_served lawful.constant serves₁ permitted₁ copies₁
      exact ⟨outcome, session', same.trans run, Or.inr ⟨heap', serves'⟩⟩
  · obtain ⟨outcome, session', heap', run, _, serves'⟩ :=
      step_served lawful.constant serves permitted copies
    exact ⟨outcome, session', run, Or.inr ⟨heap', serves'⟩⟩

theorem start_idle (env : σ) (memory : Memory) :
    Idle total memory (Session.start build env memory) :=
  ⟨new_uninitialized env memory, fun _ => rfl, rfl⟩

theorem CoveredReached.sound (lawful : E.Lawful build.target total)
    (reached : CoveredReached build E memory session) : Sound total memory session := by
  refine reached.invariant (Sound total memory) ?_ fun s op outcome s' sound allowed stepped => ?_
  · rintro _ ⟨env, rfl⟩
    exact Or.inl (start_idle env memory)
  · obtain ⟨outcome', session', run, sound'⟩ := step_sound lawful sound allowed.1 allowed.2
    obtain ⟨_, rfl⟩ := Prod.mk.inj (Except.ok.inj (stepped.symm.trans run))
    exact sound'

theorem copies_inplace (inplace : build.reallocInplace = true) (op : Op) (session : Session build σ) :
    Copies E op session := by
  cases op with
  | realloc => exact fun _ _ _ _ => Or.inl inplace
  | _ => trivial

theorem Reached.covered (inplace : build.reallocInplace = true)
    (reached : Reached build E memory session) : CoveredReached build E memory session :=
  reached.mono fun op session permitted => ⟨permitted, copies_inplace inplace op session⟩

theorem Reached.sound (lawful : E.Lawful build.target total) (inplace : build.reallocInplace = true)
    (reached : Reached build E memory session) : Sound total memory session :=
  (reached.covered inplace).sound lawful

end Steps

section Sample

def sampleBuild : Build := ⟨.x86_64, true, true, true⟩

def sampleEnv : Env Unit := arrayPointer .x86_64 32 256

def sampleStart : Session sampleBuild Unit := Session.start sampleBuild () fun _ => 0

theorem sample_lawful : sampleEnv.Lawful sampleBuild.target 8 :=
  arrayPointer_lawful (by decide) (by decide) (by decide) (by decide) (by decide)

theorem sample_reached : Reached sampleBuild sampleEnv (fun _ => 0) sampleStart :=
  .start ⟨(), rfl⟩

theorem sample_allocated : ∃ session pointer outcome,
    step sampleEnv (.alloc 1 2) sampleStart = .ok (outcome, session) ∧
      session.live 0 = some pointer ∧ Reached sampleBuild sampleEnv (fun _ => 0) session := by
  obtain ⟨⟨outcome, session⟩, run, alive⟩ := check_ok
    (show check (fun result => (result.2.live 0).isSome)
      (step sampleEnv (.alloc 1 2) sampleStart) = true by decide +kernel)
  obtain ⟨pointer, live⟩ := Option.isSome_iff_exists.mp alive
  exact ⟨session, pointer, outcome, run, live,
    .step sample_reached (show Permitted (.alloc 1 2) sampleStart from trivial) run⟩

theorem sample_based : ∃ session outcome,
    step sampleEnv (.alloc 1 2) sampleStart = .ok (outcome, session) ∧
      session.allocator.baseAddress ≠ Pointer.null ∧
      Reached sampleBuild sampleEnv (fun _ => 0) session := by
  obtain ⟨session, pointer, outcome, run, live, reached⟩ := sample_allocated
  refine ⟨session, outcome, run, ?_, reached⟩
  rcases reached.sound sample_lawful rfl with idle | ⟨heap, serves⟩
  · rw [idle.live 0] at live
    cases live
  · exact serves.represents.placed.nonnull.ne'

end Sample

end Picoalloc
