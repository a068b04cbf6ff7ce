import Picoalloc.Foundation.Refinements
import Picoalloc.Integrity

/-!
What the allocator is for: a store of numbered blocks of bytes. Its steps say what a
call may do to the blocks and leave open where a block lies and whether there is
memory for it. Every run of the allocator is a run of the store.
-/

namespace Picoalloc
open CheckedMachine ByteMemory Tilings

/-- Two blocks, each a pointer and its bytes, with the room of a header between them. -/
def BlocksApart (left right : Nat × List UInt8) : Prop :=
  left.1 + left.2.length + 32 ≤ right.1 ∨ right.1 + right.2.length + 32 ≤ left.1

/-- The blocks of a client and the number of its next allocation. -/
@[ext] structure Blocks where
  block : Nat → Option (Nat × List UInt8)
  next : Nat
  numbered : ∀ handle, block handle ≠ none → handle < next
  apart : ∀ handle other here there, handle ≠ other → block handle = some here →
    block other = some there → BlocksApart here there

def Blocks.empty : Blocks where
  block _ := none
  next := 0
  numbered _ present := absurd rfl present
  apart _ _ _ _ _ impossible := nomatch impossible

inductive Blocks.Step (zeroes : Prop) : Op → Outcome → Blocks → Blocks → Prop where
  | granted {isCalloc : Bool} {align size pointer : Nat} {bytes : List UInt8} {before after : Blocks}
      (aligned : pointer % Size.bytes align = 0) (sized : bytes.length = 32 * size)
      (zero : isCalloc = true → zeroes → ∀ byte ∈ bytes, byte = 0)
      (block : after.block = Function.update before.block before.next (some (pointer, bytes)))
      (next : after.next = before.next + 1) :
      Step zeroes (Op.allocation isCalloc align size) (.pointer (some pointer)) before after
  | refused {isCalloc : Bool} {align size : Nat} {before after : Blocks}
      (block : after.block = before.block) (next : after.next = before.next + 1) :
      Step zeroes (Op.allocation isCalloc align size) (.pointer none) before after
  | freed {op : Op} {outcome : Outcome} {handle : Nat} {here : Nat × List UInt8}
      {before after : Blocks} (held : before.block handle = some here)
      (call : (op = .free handle ∨ op = .shrinkInplace handle 0) ∧ outcome = .done ∨
        ∃ align, op = .realloc handle align 0 ∧ outcome = .pointer none)
      (block : after.block = Function.update before.block handle none)
      (next : after.next = before.next) : Step zeroes op outcome before after
  | shrunk {handle newSize pointer : Nat} {bytes : List UInt8} {before after : Blocks}
      (held : before.block handle = some (pointer, bytes)) (nonempty : newSize ≠ 0)
      (block : after.block =
        Function.update before.block handle (some (pointer, bytes.take (32 * newSize))))
      (next : after.next = before.next) :
      Step zeroes (.shrinkInplace handle newSize) .done before after
  | grown {handle newSize usable pointer : Nat} {bytes more : List UInt8} {before after : Blocks}
      (held : before.block handle = some (pointer, bytes)) (large : newSize ≤ usable)
      (sized : (bytes ++ more).length = 32 * usable)
      (block : after.block = Function.update before.block handle (some (pointer, bytes ++ more)))
      (next : after.next = before.next) :
      Step zeroes (.growInplace handle newSize) (.usable (some usable)) before after
  | moved {handle align newSize pointer pointer' : Nat} {bytes bytes' : List UInt8}
      {before after : Blocks} (held : before.block handle = some (pointer, bytes)) (sized : bytes'.length = 32 * newSize)
      (copied : bytes'.take bytes.length = bytes.take bytes'.length)
      (block : after.block = Function.update before.block handle (some (pointer', bytes')))
      (next : after.next = before.next) :
      Step zeroes (.realloc handle align newSize) (.pointer (some pointer')) before after
  | failed {op : Op} {outcome : Outcome} {handle newSize : Nat} {before after : Blocks}
      (held : before.block handle ≠ none)
      (call : op = .growInplace handle newSize ∧ outcome = .usable none ∨
        ∃ align, op = .realloc handle align newSize ∧ outcome = .pointer none ∧ newSize ≠ 0)
      (block : after.block = before.block) (next : after.next = before.next) :
      Step zeroes op outcome before after
  | wrote {handle index pointer : Nat} {byte : UInt8} {bytes : List UInt8} {before after : Blocks}
      (held : before.block handle = some (pointer, bytes)) (inside : index < bytes.length)
      (block : after.block =
        Function.update before.block handle (some (pointer, bytes.set index byte)))
      (next : after.next = before.next) :
      Step zeroes (.write handle index byte) .done before after

variable {build : Build} {σ : Type} {E : Env σ} {total : Nat} {memory : Memory}
  {session session' : Session build σ} {heap heap' : Heap}

def Session.block (session : Session build σ) (handle : Nat) : Option (Nat × List UInt8) := do
  let pointer ← session.live handle
  match usableSize build pointer session.allocator with
  | .ok (length, _) => some (pointer, slice session.allocator.memory pointer length)
  | .error _ => none

section Reading

variable {handle pointer length place size : Nat} {bytes : List UInt8}

theorem Session.block_dead (dead : session.live handle = none) : session.block handle = none := by
  simp [Session.block, dead]

theorem Session.block_live (live : session.live handle = some pointer)
    (sized : usableSize build pointer session.allocator = .ok (length, session.allocator)) :
    session.block handle = some (pointer, slice session.allocator.memory pointer length) := by
  simp [Session.block, live, sized]

theorem Serves.block (serves : Serves total memory session heap) (here : heap.Allots place size)
    (live : session.live handle = some (session.allocator.unit (place + headerSize))) :
    session.block handle = some (session.allocator.unit (place + headerSize),
      slice session.allocator.memory (session.allocator.unit (place + headerSize))
        (32 * (size - headerSize))) :=
  Session.block_live live (usableSize_ok serves.represents here)

theorem Serves.chunk_of_block (serves : Serves total memory session heap)
    (held : session.block handle = some (pointer, bytes)) :
    ∃ place size, heap.Allots place size ∧ 0 < size ∧
      pointer = session.allocator.unit (place + headerSize) ∧
      session.live handle = some pointer ∧
      bytes = slice session.allocator.memory pointer (32 * (size - headerSize)) := by
  cases live : session.live handle with
  | none =>
      rw [Session.block_dead live] at held
      cases held
  | some other =>
      obtain ⟨place, size, here, positive, -, rfl, -⟩ := serves.usable live
      rw [serves.block here live] at held
      cases held
      exact ⟨place, size, here, positive, rfl, rfl, rfl⟩

end Reading

theorem Sound.block_numbered (sound : Sound total memory session) {handle : Nat}
    (present : session.block handle ≠ none) : handle < session.calls := by
  rcases sound with idle | ⟨heap, serves⟩
  · exact absurd (Session.block_dead (idle.live handle)) present
  · by_contra above
    refine present (Session.block_dead ?_)
    by_contra live
    exact above (serves.numbered handle live)

theorem Sound.blocks_apart (sound : Sound total memory session) {handle other : Nat}
    {here there : Nat × List UInt8} (different : handle ≠ other)
    (held : session.block handle = some here) (held' : session.block other = some there) :
    BlocksApart here there := by
  obtain ⟨pointer, bytes⟩ := here
  obtain ⟨pointer', bytes'⟩ := there
  rcases sound with idle | ⟨heap, serves⟩
  · rw [Session.block_dead (idle.live handle)] at held
    cases held
  · obtain ⟨place, size, chunk, wide, rfl, live, rfl⟩ := serves.chunk_of_block held
    obtain ⟨place', size', chunk', wide', rfl, live', rfl⟩ := serves.chunk_of_block held'
    have apart := heap.chunks_apart chunk chunk'
    have elsewhere : place ≠ place' := by
      rintro rfl
      exact different (serves.distinct _ _ _ live live')
    simp only [BlocksApart, slice_length, State.unit, headerSize] at *
    omega

def Sound.blocks (sound : Sound total memory session) : Blocks where
  block := session.block
  next := session.calls
  numbered _ := sound.block_numbered
  apart _ _ _ _ := sound.blocks_apart

section Turns

variable {op : Op} {outcome : Outcome} {handle : Nat}

def Op.subject (op : Op) (session : Session build σ) : Nat :=
  op.handle.getD session.calls

theorem subject_allocation (isCalloc : Bool) (align size : Nat) (session : Session build σ) :
    (Op.allocation isCalloc align size).subject session = session.calls := by
  cases isCalloc <;> rfl

theorem Turn.live_other (turn : Turn total session heap op outcome session' heap')
    (other : handle ≠ op.subject session) : session'.live handle = session.live handle := by
  cases turn with
  | granted call | refused call =>
      rw [call, subject_allocation] at other
      exact Function.update_of_ne other _ _
  | freed here live call effect =>
      rcases call with ⟨rfl | rfl, -⟩ | ⟨_, rfl, -⟩ <;> exact Function.update_of_ne other _ _
  | shrunk | moved | wrote => exact Function.update_of_ne other _ _
  | grown | failed => rfl

theorem Serves.block_stays (serves : Serves total memory session heap)
    (serves' : Serves total memory session' heap') (kept : session'.live handle = session.live handle)
    (stays : ∀ place size, heap.Allots place size →
      session.live handle = some (session.allocator.unit (place + headerSize)) →
      Stays heap' place size session.allocator session'.allocator) :
    session'.block handle = session.block handle := by
  cases live : session.live handle with
  | none => rw [Session.block_dead live, Session.block_dead (kept.trans live)]
  | some pointer =>
      obtain ⟨place, size, here, -, -, rfl, -⟩ := serves.usable live
      have stays := stays place size here live
      have unit : session'.allocator.unit (place + headerSize) =
          session.allocator.unit (place + headerSize) := by
        rw [State.unit, State.unit, stays.base]
      rw [serves.block here live, serves'.block stays.allots (by rw [kept, live, unit]), unit,
        slice_congr stays.bytes]

theorem Turn.block_other (turn : Turn total session heap op outcome session' heap')
    (serves : Serves total memory session heap) (serves' : Serves total memory session' heap')
    (other : handle ≠ op.subject session) : session'.block handle = session.block handle := by
  have apart : op.handle ≠ some handle := by
    intro named
    rw [Op.subject, named] at other
    exact other rfl
  exact serves.block_stays serves' (turn.live_other other) fun place size here live =>
    (turn.stays serves apart live here).2

/-- A call changes one block at most. -/
theorem Turn.block (turn : Turn total session heap op outcome session' heap')
    (serves : Serves total memory session heap) (serves' : Serves total memory session' heap') :
    session'.block =
      Function.update session.block (op.subject session) (session'.block (op.subject session)) := by
  funext handle
  by_cases same : handle = op.subject session
  · rw [same, Function.update_self]
  · rw [Function.update_of_ne same, turn.block_other serves serves' same]

theorem Serves.block_new {old : Option (Nat × Nat)} {place size : Nat} {s' : AllocatorState build σ}
    (serves' : Serves total memory session' heap')
    (effect : Effect total heap heap' old (some (place, size)) session.allocator s')
    (state : session'.allocator = s')
    (live : session'.live handle = some (session.allocator.unit (place + headerSize))) :
    session'.block handle = some (session.allocator.unit (place + headerSize),
      slice s'.memory (session.allocator.unit (place + headerSize)) (32 * (size - headerSize))) := by
  subst state
  have here : heap'.Allots place size := (effect.allots _ _).mpr (Or.inl rfl)
  rw [← effect.keeps.unit] at live ⊢
  exact serves'.block here live

theorem Effect.carries {place size place' size' length : Nat} {s s' : AllocatorState build σ}
    (effect : Effect total heap heap' (some (place, size)) (some (place', size')) s s')
    (common : length ≤ 32 * (min size size' - headerSize)) :
    slice s'.memory (s.unit (place' + headerSize)) length =
      slice s.memory (s.unit (place + headerSize)) length :=
  slice_congr fun i inside =>
    effect.carried (place, size) rfl (place', size') rfl i (Nat.lt_of_lt_of_le inside common)

def Cleared (op : Op) (outcome : Outcome) (session' : Session build σ) : Prop :=
  ∀ align size pointer, op = .allocZeroed align size → outcome = .pointer (some pointer) →
    ∀ byte ∈ slice session'.allocator.memory pointer (32 * size), byte = 0

variable {zeroes : Prop} {before after : Blocks}

/-- A call on a served session is a step of the store. -/
theorem Turn.step (turn : Turn total session heap op outcome session' heap')
    (serves : Serves total memory session heap) (serves' : Serves total memory session' heap')
    (cleared : zeroes → Cleared op outcome session')
    (block : before.block = session.block) (next : before.next = session.calls)
    (block' : after.block = session'.block) (next' : after.next = session'.calls) :
    Blocks.Step zeroes op outcome before after := by
  have changed : ∀ {slot : Option (Nat × List UInt8)}, session'.block (op.subject session) = slot →
      after.block = Function.update before.block (op.subject session) slot := by
    rintro _ rfl
    rw [block, block', turn.block serves serves']
    simp
  -- Each case reads the block of its handle off the heap and leaves the rest to `changed`.
  cases turn with
  | @granted _ align size place isCalloc s' _ call effect returned =>
      subst call
      have bound := serves'.block_new effect rfl (Function.update_self _ _ _)
      rw [Nat.add_sub_cancel] at bound
      rw [subject_allocation, ← next] at changed
      refine .granted returned.aligned (slice_length _ _ _) ?_ (changed (next ▸ bound))
        (by rw [next', next]; rfl)
      rintro rfl given
      exact cleared given align size _ rfl rfl
  | @refused _ align size isCalloc s' call unchanged =>
      subst call
      have dead : before.block session.calls = none := by
        rw [block, Session.block_dead serves.idle_handle]
      rw [subject_allocation] at changed
      refine .refused ?_ (by rw [next', next]; rfl)
      rw [changed (Session.block_dead (Function.update_self _ _ _)), ← dead, Function.update_eq_self]
  | @freed _ _ handle _ _ s' _ here live call effect =>
      have subject : op.subject session = handle := by
        rcases call with ⟨rfl | rfl, -⟩ | ⟨_, rfl, -⟩ <;> rfl
      rw [subject] at changed
      refine .freed (by rw [block, serves.block here live]) call
        (changed (Session.block_dead (Function.update_self _ _ _))) (by rw [next', next]; rfl)
  | @shrunk handle place size newSize s' _ here live nonempty effect =>
      have bound := serves'.block_new effect rfl (Function.update_self _ _ _)
      have common : 32 * (min size (newSize + headerSize) - headerSize) =
          min (32 * newSize) (32 * (size - headerSize)) := by
        simp only [headerSize]
        omega
      rw [effect.carries (by simp only [headerSize]; omega), common, ← slice_take] at bound
      exact .shrunk (by rw [block, serves.block here live]) nonempty (changed bound)
        (by rw [next', next]; rfl)
  | @grown handle place size newSize s' _ here live effect =>
      have bound := serves'.block_new effect rfl live
      rw [Nat.add_sub_cancel] at bound
      -- the old bytes stay in front of the ones that were added
      obtain ⟨more, longer⟩ := slice_append
        (show 32 * (size - headerSize) ≤ 32 * max (size - headerSize) newSize by omega)
        fun i inside => effect.carried _ rfl _ rfl i (by simp only [headerSize] at *; omega)
      rw [longer] at bound
      refine .grown (by rw [block, serves.block here live]) (Nat.le_max_right _ _) ?_ (changed bound)
        (by rw [next', next])
      rw [← longer, slice_length]
  | @moved handle align place size place' newSize s' _ here live effect =>
      have bound := serves'.block_new effect rfl (Function.update_self _ _ _)
      rw [Nat.add_sub_cancel] at bound
      refine .moved (by rw [block, serves.block here live]) (slice_length _ _ _) ?_ (changed bound)
        (by rw [next', next]; rfl)
      simp only [slice_length, slice_take]
      rw [Nat.min_comm]
      exact effect.carries (by simp only [headerSize]; omega)
  | @failed _ _ handle _ s' live call unchanged =>
      have same : after.block = before.block := by
        rw [block, block']
        exact funext fun _ => serves.block_stays serves' rfl fun _ _ here _ => unchanged.stays here
      refine .failed ?_ call same (by rw [next', next])
      obtain ⟨place, size, here, live⟩ := serves.chunk live
      rw [block, serves.block here live]
      exact Option.some_ne_none _
  | @wrote handle index byte place size here live inside =>
      have bound : (session.rebind handle (some (session.allocator.unit (place + headerSize)))
          (Function.update (session.written handle) index (some byte))
          (session.allocator.poke (session.allocator.unit (place + headerSize) + index) byte)).block
            handle = some (session.allocator.unit (place + headerSize),
          (slice session.allocator.memory (session.allocator.unit (place + headerSize))
            (32 * (size - headerSize))).set index byte) := by
        rw [← slice_update]
        exact serves'.block here (Function.update_self _ _ _)
      exact .wrote (by rw [block, serves.block here live]) (by simpa using inside) (changed bound)
        (by rw [next', next]; rfl)

end Turns

section Runs

variable {zeroes : Prop} {blocks : Blocks}

def Blocks.Permitted : Op → Blocks → Prop
  | .alloc _ _, _ | .allocZeroed _ _, _ => True
  | .free handle, blocks | .growInplace handle _, blocks | .realloc handle _ _, blocks =>
      blocks.block handle ≠ none
  | .shrinkInplace handle newSize, blocks => blocks.block handle ≠ none ∧ newSize < 2 ^ sizeBits - 1
  | .write handle index _, blocks =>
      ∃ pointer bytes, blocks.block handle = some (pointer, bytes) ∧ index < bytes.length

/-- A session and the blocks that its client sees. -/
structure Shows (E : Env σ) (memory : Memory) (session : Session build σ) (blocks : Blocks) : Prop where
  reached : Reached build E memory session
  block : blocks.block = session.block
  next : blocks.next = session.calls

theorem Idle.block (idle : Idle total memory session) (handle : Nat) : session.block handle = none :=
  Session.block_dead (idle.live handle)

theorem Idle.allocation (idle : Idle total memory session) {op : Op} (permitted : Permitted op session) :
    ∃ isCalloc align size, op = Op.allocation isCalloc align size := by
  cases op with
  | alloc align size => exact ⟨false, align, size, rfl⟩
  | allocZeroed align size => exact ⟨true, align, size, rfl⟩
  | free handle | growInplace handle | realloc handle => exact absurd (idle.live handle) permitted
  | shrinkInplace handle => exact absurd (idle.live handle) permitted.1
  | write handle =>
      obtain ⟨pointer, _, live, _⟩ := permitted
      rw [idle.live handle] at live
      cases live

theorem Sound.live_of_block (sound : Sound total memory session) {handle pointer : Nat}
    {bytes : List UInt8} (held : session.block handle = some (pointer, bytes)) :
    session.live handle = some pointer ∧
      usableSize build pointer session.allocator = .ok (bytes.length, session.allocator) ∧
      bytes = slice session.allocator.memory pointer bytes.length := by
  rcases sound with idle | ⟨heap, serves⟩
  · rw [idle.block handle] at held
    cases held
  · obtain ⟨place, size, here, -, rfl, live, rfl⟩ := serves.chunk_of_block held
    rw [slice_length]
    exact ⟨live, usableSize_ok serves.represents here, rfl⟩

theorem Shows.live (shows : Shows E memory session blocks) {handle : Nat}
    (held : blocks.block handle ≠ none) : session.live handle ≠ none := by
  intro dead
  rw [shows.block, Session.block_dead dead] at held
  exact held rfl

theorem Shows.permitted (shows : Shows E memory session blocks) (sound : Sound total memory session)
    {op : Op} (permitted : blocks.Permitted op) : Permitted op session := by
  cases op with
  | alloc | allocZeroed => trivial
  | free | growInplace | realloc => exact shows.live permitted
  | shrinkInplace => exact ⟨shows.live permitted.1, permitted.2⟩
  | write handle index byte =>
      obtain ⟨pointer, bytes, held, inside⟩ := permitted
      rw [shows.block] at held
      obtain ⟨live, sized, -⟩ := sound.live_of_block held
      exact ⟨pointer, _, live, sized, inside⟩

/-- Every permitted call is a step of the store. -/
theorem Reached.blocks_step (lawful : E.Lawful build.target total)
    (inplace : build.reallocInplace = true) (reached : Reached build E memory session)
    (granting : zeroes → ∀ session : Session build σ, Reached build E memory session →
      GrantsZeroed memory session.allocator.trace)
    {op : Op} {outcome : Outcome} (permitted : Permitted op session)
    (ran : step E op session = .ok (outcome, session')) {after : Blocks}
    (block : blocks.block = session.block) (next : blocks.next = session.calls)
    (block' : after.block = session'.block) (next' : after.next = session'.calls) :
    Blocks.Step zeroes op outcome blocks after := by
  have sound := reached.sound lawful inplace
  have copies : Copies E op session := copies_inplace inplace op session
  have reached' : Reached build E memory session' := .step reached permitted ran
  rcases sound.turn lawful permitted copies ran with
    ⟨idle, idle', rfl, s', rfl, -⟩ | ⟨s₁, heap, heap', which, serves, turn, serves'⟩
  · obtain ⟨isCalloc, align, size, rfl⟩ := idle.allocation permitted
    refine .refused ?_ (by rw [next', next]; rfl)
    funext handle
    rw [block, block', idle.block handle]
    exact idle'.block handle
  · refine turn.step serves serves' (fun given => ?_) ?_ next block' next'
    · rintro align size pointer rfl rfl byte member
      obtain ⟨index, inside, rfl⟩ := mem_slice.mp member
      exact (sound.cleared lawful ran (granting given _ reached')).2 index inside
    · rcases which with rfl | ⟨idle, rfl⟩
      · exact block
      · funext handle
        rw [block, idle.block handle, Session.block_dead]
        exact idle.live handle

theorem shows_step (lawful : E.Lawful build.target total) (inplace : build.reallocInplace = true)
    (granting : zeroes → ∀ session : Session build σ, Reached build E memory session →
      GrantsZeroed memory session.allocator.trace) :
    Refines (Shows E memory : Session build σ → Blocks → Prop) Blocks.Permitted (step E)
      (Blocks.Step zeroes) := by
  constructor
  intro op session blocks shows able
  have sound := shows.reached.sound lawful inplace
  have permitted := shows.permitted sound able
  obtain ⟨outcome, session', ran, sound'⟩ :=
    step_sound lawful sound permitted (copies_inplace inplace op session)
  exact ⟨outcome, session', sound'.blocks, ran,
    shows.reached.blocks_step lawful inplace granting permitted ran shows.block shows.next rfl rfl,
    .step shows.reached permitted ran, rfl, rfl⟩

/-- The allocator refines the store: whatever a client does that is careful with its blocks,
every call gets an answer, and what it sees of its blocks over the whole run is a run of the
store. -/
theorem allocator_refines_store (lawful : E.Lawful build.target total)
    (inplace : build.reallocInplace = true)
    (granting : zeroes → ∀ session : Session build σ, Reached build E memory session →
      GrantsZeroed memory session.allocator.trace)
    (env : σ) (client : Client Op Outcome)
    (careful : Careful (Blocks.Step zeroes) Blocks.Permitted client Blocks.empty) (steps : Nat) :
    ∃ history session blocks,
      play (step E) client steps [] (Session.start build env memory) = .ok (history, session) ∧
      Plays (Blocks.Step zeroes) client history Blocks.empty blocks ∧
      blocks.block = session.block ∧ blocks.next = session.calls := by
  have start : Shows E memory (Session.start build env memory) Blocks.empty := by
    refine ⟨.start ⟨env, rfl⟩, funext fun handle => ?_, rfl⟩
    exact (Session.block_dead rfl).symm
  obtain ⟨history, session, blocks, ran, run, shows⟩ :=
    (shows_step lawful inplace granting).play careful start steps
  exact ⟨history, session, blocks, ran, run, shows.block, shows.next⟩

end Runs

section Inversion

variable {zeroes : Prop} {before after : Blocks} {handle align size newSize index : Nat}
  {byte : UInt8} {outcome : Outcome}

theorem Blocks.Step.allocation_inv {isCalloc : Bool} {result : Option Nat}
    (stepped : Blocks.Step zeroes (Op.allocation isCalloc align size) (.pointer result) before after) :
    (result = none ∧ after.block = before.block) ∨
      ∃ pointer, ∃ bytes : List UInt8, result = some pointer ∧ pointer % Size.bytes align = 0 ∧
        bytes.length = 32 * size ∧ (isCalloc = true → zeroes → ∀ byte ∈ bytes, byte = 0) ∧
        after.block = Function.update before.block before.next (some (pointer, bytes)) := by
  generalize called : Op.allocation isCalloc align size = op at stepped
  generalize answered : Outcome.pointer result = outcome at stepped
  have notCall : ∀ handle, op.handle ≠ some handle := by
    rintro handle named
    subst called
    cases isCalloc <;> cases named
  cases stepped with
  | granted aligned sized zero block =>
      obtain ⟨rfl, rfl, rfl⟩ := allocation_inj called
      cases answered
      exact Or.inr ⟨_, _, rfl, aligned, sized, zero, block⟩
  | refused block =>
      cases answered
      exact Or.inl ⟨rfl, block⟩
  | freed held call =>
      rcases call with ⟨rfl | rfl, -⟩ | ⟨_, rfl, -⟩ <;> exact absurd rfl (notCall _)
  | failed held call =>
      rcases call with ⟨rfl, -⟩ | ⟨_, rfl, -⟩ <;> exact absurd rfl (notCall _)
  | shrunk | grown | moved | wrote => exact absurd rfl (notCall _)

theorem Blocks.Step.realloc_inv {result : Option Nat} (nonempty : newSize ≠ 0)
    (stepped : Blocks.Step zeroes (.realloc handle align newSize) (.pointer result) before after) :
    (result = none ∧ after.block = before.block) ∨
      ∃ pointer pointer', ∃ bytes bytes' : List UInt8, result = some pointer' ∧
        before.block handle = some (pointer, bytes) ∧ bytes'.length = 32 * newSize ∧
        bytes'.take bytes.length = bytes.take bytes'.length ∧
        after.block = Function.update before.block handle (some (pointer', bytes')) := by
  generalize called : Op.realloc handle align newSize = op at stepped
  generalize answered : Outcome.pointer result = outcome at stepped
  cases stepped with
  | moved held sized copied block =>
      cases called
      cases answered
      exact Or.inr ⟨_, _, _, _, rfl, held, sized, copied, block⟩
  | failed held call block =>
      subst called
      rcases call with ⟨impossible, -⟩ | ⟨_, same, rfl, -⟩
      · cases impossible
      · cases answered
        exact Or.inl ⟨rfl, block⟩
  | freed held call =>
      subst called
      rcases call with ⟨impossible | impossible, -⟩ | ⟨_, same, -⟩
      · cases impossible
      · cases impossible
      · cases same
        exact absurd rfl nonempty
  | @granted isCalloc | @refused isCalloc => cases isCalloc <;> cases called
  | shrunk | grown | wrote => cases called

theorem Blocks.Step.free_inv (stepped : Blocks.Step zeroes (.free handle) outcome before after) :
    after.block = Function.update before.block handle none := by
  generalize called : Op.free handle = op at stepped
  cases stepped with
  | freed held call block =>
      subst called
      rcases call with ⟨same | impossible, -⟩ | ⟨_, impossible, -⟩
      · cases same
        exact block
      · cases impossible
      · cases impossible
  | failed held call =>
      subst called
      rcases call with ⟨impossible, -⟩ | ⟨_, impossible, -⟩ <;> cases impossible
  | @granted isCalloc | @refused isCalloc => cases isCalloc <;> cases called
  | shrunk | grown | moved | wrote => cases called

theorem Blocks.Step.shrink_inv (nonempty : newSize ≠ 0)
    (stepped : Blocks.Step zeroes (.shrinkInplace handle newSize) outcome before after) :
    ∃ pointer, ∃ bytes : List UInt8, before.block handle = some (pointer, bytes) ∧
      after.block = Function.update before.block handle (some (pointer, bytes.take (32 * newSize))) := by
  generalize called : Op.shrinkInplace handle newSize = op at stepped
  cases stepped with
  | shrunk held _ block =>
      cases called
      exact ⟨_, _, held, block⟩
  | freed held call =>
      subst called
      rcases call with ⟨impossible | same, -⟩ | ⟨_, impossible, -⟩
      · cases impossible
      · cases same
        exact absurd rfl nonempty
      · cases impossible
  | failed held call =>
      subst called
      rcases call with ⟨impossible, -⟩ | ⟨_, impossible, -⟩ <;> cases impossible
  | @granted isCalloc | @refused isCalloc => cases isCalloc <;> cases called
  | grown | moved | wrote => cases called

theorem Blocks.Step.grow_inv {result : Option Nat}
    (stepped : Blocks.Step zeroes (.growInplace handle newSize) (.usable result) before after) :
    (result = none ∧ after.block = before.block) ∨
      ∃ usable pointer, ∃ bytes more : List UInt8, result = some usable ∧
        before.block handle = some (pointer, bytes) ∧ (bytes ++ more).length = 32 * usable ∧
        after.block = Function.update before.block handle (some (pointer, bytes ++ more)) := by
  generalize called : Op.growInplace handle newSize = op at stepped
  generalize answered : Outcome.usable result = outcome at stepped
  cases stepped with
  | grown held _ sized block =>
      cases called
      cases answered
      exact Or.inr ⟨_, _, _, _, rfl, held, sized, block⟩
  | failed held call block =>
      subst called
      rcases call with ⟨-, rfl⟩ | ⟨_, impossible, -⟩
      · cases answered
        exact Or.inl ⟨rfl, block⟩
      · cases impossible
  | freed held call =>
      subst called
      rcases call with ⟨impossible | impossible, -⟩ | ⟨_, impossible, -⟩ <;> cases impossible
  | @granted isCalloc | @refused isCalloc => cases isCalloc <;> cases called
  | shrunk | moved | wrote => cases called

theorem Blocks.Step.write_inv
    (stepped : Blocks.Step zeroes (.write handle index byte) outcome before after) :
    ∃ pointer, ∃ bytes : List UInt8, before.block handle = some (pointer, bytes) ∧
      after.block = Function.update before.block handle (some (pointer, bytes.set index byte)) := by
  generalize called : Op.write handle index byte = op at stepped
  cases stepped with
  | wrote held inside block =>
      cases called
      exact ⟨_, _, held, block⟩
  | @granted isCalloc | @refused isCalloc => cases isCalloc <;> cases called
  | freed held call =>
      subst called
      rcases call with ⟨impossible | impossible, -⟩ | ⟨_, impossible, -⟩ <;> cases impossible
  | failed held call =>
      subst called
      rcases call with ⟨impossible, -⟩ | ⟨_, impossible, -⟩ <;> cases impossible
  | shrunk | grown | moved => cases called

end Inversion

section Sample

variable {zeroes : Prop}

/-- A client that allocates, and if it got a block writes to it and frees it. -/
def sampleClient : Client Op Outcome
  | [] => some (.allocZeroed 1 2)
  | [(_, .pointer (some _))] => some (.write 0 5 7)
  | [(_, .pointer (some _)), _] => some (.free 0)
  | _ => none

theorem sampleClient_careful :
    Careful (Blocks.Step zeroes) Blocks.Permitted sampleClient Blocks.empty := by
  have first : ∀ {op pointer blocks},
      Plays (Blocks.Step zeroes) sampleClient ([] ++ [(op, .pointer (some pointer))]) Blocks.empty blocks →
        ∃ bytes, bytes.length = 32 * 2 ∧ blocks.block 0 = some (pointer, bytes) := by
    intro op pointer blocks played
    obtain ⟨start, begun, chosen, stepped⟩ := played.last
    obtain rfl := begun.start
    obtain rfl : Op.allocation true 1 2 = op := Option.some.inj chosen
    rcases stepped.allocation_inv with ⟨impossible, -⟩ | ⟨_, bytes, same, -, sized, -, block⟩
    · cases impossible
    · cases same
      exact ⟨bytes, sized, by rw [block]; exact Function.update_self _ _ _⟩
  intro history blocks op played chosen
  rw [sampleClient.eq_def] at chosen
  split at chosen
  · cases chosen
    trivial
  · cases chosen
    obtain ⟨bytes, length, held⟩ := first played
    exact ⟨_, bytes, held, by omega⟩
  · next op₀ pointer last =>
    obtain ⟨op₁, outcome⟩ := last
    cases chosen
    obtain ⟨between, -, wrote, stepped⟩ :=
      Plays.last (show Plays _ _ ([(op₀, .pointer (some pointer))] ++ [(op₁, outcome)]) _ _ from played)
    obtain rfl : Op.write 0 5 7 = op₁ := Option.some.inj wrote
    obtain ⟨_, _, -, block⟩ := stepped.write_inv
    intro freed
    rw [block, Function.update_self] at freed
    cases freed
  · cases chosen

/-- That client of an array of zeros, of which zeroed allocations are zero. -/
theorem allocator_refines_store_sample : ∃ history session blocks,
    play (step sampleEnv) sampleClient 3 [] sampleStart = .ok (history, session) ∧
      Plays (Blocks.Step True) sampleClient history Blocks.empty blocks ∧
      blocks.block = session.block ∧ blocks.next = session.calls :=
  allocator_refines_store sample_lawful rfl (fun _ _ _ _ _ _ _ _ => rfl) () sampleClient
    sampleClient_careful 3

end Sample

end Picoalloc
