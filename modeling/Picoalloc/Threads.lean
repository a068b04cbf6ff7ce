import Picoalloc.Mutexes
import Picoalloc.Stores

/-!
Threads that share an allocator behind a mutex. They make their calls under the lock and write
to their payloads beside it, at any time, each of them to pointers that no other thread makes a
call on meanwhile. Whatever accesses the calls consist of and however all of this interleaves,
the allocator goes through a sequential session.
-/

namespace Picoalloc
open CheckedMachine ByteMemory Tilings Atomics

variable {build : Build} {σ : Type} {E : Env σ} {total : Nat} {memory : Memory}
  {Thread Local : Type}

def Session.wrote (handle pointer index : Nat) (byte : UInt8) (session : Session build σ) :
    Session build σ :=
  session.rebind handle (some pointer) (Function.update (session.written handle) index (some byte))
    (session.allocator.poke (pointer + index) byte)

/-- How the calls are cut into accesses to the session. Uninterrupted, the accesses of a call
amount to the call. They leave the payloads of other calls alone, so that it makes no difference
to them whether bytes there are written before the call or meanwhile. -/
structure Cuts (E : Env σ) (memory : Memory)
    (sections : Sections (Session build σ) Op Local Outcome) : Prop where
  ran : ∀ op session outcome session', step E op session = .ok (outcome, session') →
    sections.Ran (sections.enter op) session outcome session'
  spares : ∀ op session here session' handle pointer bytes, Reached build E memory session →
    Permitted op session → sections.Begun op session here session' → op.handle ≠ some handle →
    session.block handle = some (pointer, bytes) →
    slice session'.allocator.memory pointer bytes.length = bytes ∧
      ∀ index byte, index < bytes.length → sections.Begun op
        (session.wrote handle pointer index byte) here (session'.wrote handle pointer index byte)

def Op.ApartFrom (op other : Op) : Prop :=
  ∀ handle, op.handle = some handle → other.handle ≠ some handle

theorem Op.ApartFrom.symm {op other : Op} (apart : op.ApartFrom other) : other.ApartFrom op :=
  fun handle about about' => apart handle about' about

section Keeping

variable {session session' : Session build σ} {op other : Op} {outcome : Outcome} {handle pointer : Nat}

theorem step_wrote (live : session.live handle = some pointer) (index : Nat) (byte : UInt8) :
    step E (.write handle index byte) session = .ok (.done, session.wrote handle pointer index byte) := by
  simp only [step, Session.onLive, live]
  rfl

theorem Sound.block_of_live (sound : Sound total memory session)
    (live : session.live handle = some pointer) : ∃ bytes, session.block handle = some (pointer, bytes) := by
  rcases sound with idle | ⟨heap, serves⟩
  · cases (idle.live handle).symm.trans live
  · obtain ⟨place, size, here, -, -, rfl, -⟩ := serves.usable live
    exact ⟨_, serves.block here live⟩

theorem Sound.block_kept (lawful : E.Lawful build.target total) (sound : Sound total memory session)
    (permitted : Permitted op session) (copies : Copies E op session)
    (ran : step E op session = .ok (outcome, session')) (apart : op.handle ≠ some handle)
    (held : session.block handle ≠ none) : session'.block handle = session.block handle := by
  have numbered := sound.block_numbered held
  rcases sound with idle | ⟨heap, serves⟩
  · exact absurd (idle.block handle) held
  obtain ⟨heap', turn, serves'⟩ := serves.turn lawful.constant permitted copies ran
  refine turn.block_other serves serves' ?_
  cases named : op.handle with
  | none =>
      rw [Op.subject, named]
      exact numbered.ne
  | some subject =>
      rw [Op.subject, named]
      rintro rfl
      exact apart named

/-- A call keeps those permitted that are apart from it. -/
theorem Sound.permitted (lawful : E.Lawful build.target total) (sound : Sound total memory session)
    (sound' : Sound total memory session') (permitted : Permitted op session)
    (copies : Copies E op session) (ran : step E op session = .ok (outcome, session'))
    (apart : op.ApartFrom other) (able : Permitted other session) : Permitted other session' := by
  have kept : ∀ {handle pointer}, other.handle = some handle → session.live handle = some pointer →
      ∃ bytes, session.block handle = some (pointer, bytes) ∧
        session'.block handle = some (pointer, bytes) := by
    intro handle pointer about live
    obtain ⟨bytes, held⟩ := sound.block_of_live live
    refine ⟨bytes, held, ?_⟩
    rw [sound.block_kept lawful permitted copies ran (fun named => apart handle named about)
      (by rw [held]; exact Option.some_ne_none _), held]
  have stays : ∀ {handle}, other.handle = some handle → session.live handle ≠ none →
      session'.live handle ≠ none := by
    intro handle about alive
    obtain ⟨pointer, live⟩ := Option.ne_none_iff_exists'.mp alive
    obtain ⟨bytes, -, held⟩ := kept about live
    rw [(sound'.live_of_block held).1]
    exact Option.some_ne_none _
  cases other with
  | alloc | allocZeroed => trivial
  | free handle | growInplace handle | realloc handle => exact stays rfl able
  | shrinkInplace handle => exact ⟨stays rfl able.1, able.2⟩
  | write handle index byte =>
      obtain ⟨pointer, length, live, sized, inside⟩ := able
      obtain ⟨bytes, held, held'⟩ := kept rfl live
      obtain ⟨-, sized', -⟩ := sound.live_of_block held
      obtain ⟨live', sized'', -⟩ := sound'.live_of_block held'
      cases sized.symm.trans sized'
      exact ⟨pointer, _, live', sized'', inside⟩

end Keeping

section Calls

variable {sections : Sections (Session build σ) Op Local Outcome}

theorem Cuts.serves (lawful : E.Lawful build.target total) (inplace : build.reallocInplace = true)
    (cuts : Cuts E memory sections) (op : Op) (session : Session build σ)
    (reached : Reached build E memory session) (permitted : Permitted op session) :
    ∃ outcome session', sections.Ran (sections.enter op) session outcome session' ∧
      Reached build E memory session' ∧
      ∀ other, op.ApartFrom other → Permitted other session → Permitted other session' := by
  have sound := reached.sound lawful inplace
  have copies : Copies E op session := copies_inplace inplace op session
  obtain ⟨outcome, session', ran, sound'⟩ := step_sound lawful sound permitted copies
  exact ⟨outcome, session', cuts.ran _ _ _ _ ran, .step reached permitted ran,
    fun other apart => sound.permitted lawful sound' permitted copies ran apart⟩

def sessionCalls (lawful : E.Lawful build.target total) (inplace : build.reallocInplace = true)
    (cuts : Cuts E memory sections) : Service sections where
  good := Reached build E memory
  ready := Permitted
  apart := Op.ApartFrom
  serves := cuts.serves lawful inplace

def CallsApart (op : Op) (system : System Thread (Session build σ) Op Local Outcome) : Prop :=
  Permitted op system.settled ∧
    ∀ other pending, (system.phase other).Pending pending → op.ApartFrom pending

/-- The memory changes for every thread at once, and the write takes its place among the finished
calls. -/
def System.writes (thread : Thread) (handle pointer index : Nat) (byte : UInt8)
    (system : System Thread (Session build σ) Op Local Outcome) :
    System Thread (Session build σ) Op Local Outcome :=
  { system with
    mutex := { system.mutex with value := system.mutex.value.wrote handle pointer index byte }
    settled := system.settled.wrote handle pointer index byte
    finished := system.finished ++ [(thread, .write handle index byte, .done)] }

variable {start : Session build σ} {system : System Thread (Session build σ) Op Local Outcome}

theorem System.Serial.writes (lawful : E.Lawful build.target total)
    (inplace : build.reallocInplace = true) (cuts : Cuts E memory sections) {thread : Thread}
    {handle pointer index : Nat} {byte : UInt8}
    (serial : system.Serial (sessionCalls lawful inplace cuts) start)
    (live : system.settled.live handle = some pointer)
    (allowed : CallsApart (.write handle index byte) system) :
    (system.writes thread handle pointer index byte).Serial (sessionCalls lawful inplace cuts) start := by
  obtain ⟨permitted, apart⟩ := allowed
  have reached : Picoalloc.Reached build E memory system.settled := serial.good
  have ran := step_wrote (E := E) live index byte
  have reached' : Picoalloc.Reached build E memory _ := .step reached permitted ran
  refine ⟨reached', fun other pending waits => ?_, serial.apart,
    serial.run.snoc permitted (cuts.ran _ _ _ _ ran), fun none => ?_, fun other pending here holding => ?_⟩
  · exact (reached.sound lawful inplace).permitted lawful (reached'.sound lawful inplace) permitted
      trivial ran (apart other pending waits) (serial.ready other pending waits)
  · exact congrArg (Session.wrote handle pointer index byte) (serial.rest none)
  · have waits : (system.phase other).Pending pending := Phase.pending_holding holding
    obtain ⟨_, _, live', sized, inside⟩ := permitted
    cases live.symm.trans live'
    obtain ⟨bytes, held⟩ := (reached.sound lawful inplace).block_of_live live
    obtain ⟨-, sized', -⟩ := (reached.sound lawful inplace).live_of_block held
    cases sized.symm.trans sized'
    -- the thread inside its call goes on as if the byte had been there before
    have spares := cuts.spares pending system.settled here system.mutex.value handle pointer bytes
      reached (serial.ready other pending waits) (serial.inside other pending here holding)
      (fun about => (apart other pending waits).symm handle about rfl) held
    exact spares.2 index byte inside

/-- Calls that run alone one after the other are a sequential session. -/
theorem Sections.SerialRun.sequential (lawful : E.Lawful build.target total)
    (inplace : build.reallocInplace = true) (cuts : Cuts E memory sections)
    {finished : List (Thread × Op × Outcome)} {session : Session build σ}
    (reached : Reached build E memory start) (run : sections.SerialRun Permitted finished start session) :
    runList (step E) (finished.map fun call => call.2.1) start =
        .ok (finished.map fun call => call.2.2, session) ∧
      Reached build E memory session := by
  induction run with
  | nil => exact ⟨rfl, reached⟩
  | @snoc _ _ session session' _ op outcome _ able ran ih =>
      obtain ⟨earlier, reached⟩ := ih reached
      obtain ⟨outcome', session'', ran', -⟩ :=
        step_sound lawful (reached.sound lawful inplace) able (copies_inplace inplace op session)
      obtain ⟨rfl, rfl⟩ := ran.unique (cuts.ran _ _ _ _ ran')
      refine ⟨?_, .step reached able ran'⟩
      rw [List.map_append, List.map_append]
      exact runList_snoc earlier ran'

/-- The payloads that no unfinished call is about are in memory as in the session. -/
theorem System.Serial.payload {lawful : E.Lawful build.target total}
    {inplace : build.reallocInplace = true} {cuts : Cuts E memory sections}
    (serial : system.Serial (sessionCalls lawful inplace cuts) start) {handle pointer : Nat}
    {bytes : List UInt8} (held : system.settled.block handle = some (pointer, bytes))
    (apart : ∀ other pending, (system.phase other).Pending pending → pending.handle ≠ some handle) :
    slice system.mutex.value.allocator.memory pointer bytes.length = bytes := by
  have reached : Picoalloc.Reached build E memory system.settled := serial.good
  by_cases inside : ∃ thread op here, system.phase thread = .holding op here
  · obtain ⟨thread, op, here, holding⟩ := inside
    have waits : (system.phase thread).Pending op := Phase.pending_holding holding
    exact (cuts.spares op system.settled here system.mutex.value handle pointer bytes reached
      (serial.ready thread op waits) (serial.inside thread op here holding)
      (apart thread op waits) held).1
  · have rest := serial.rest fun thread op here holding => inside ⟨thread, op, here, holding⟩
    rw [rest]
    exact ((reached.sound lawful inplace).live_of_block held).2.2.symm

variable [DecidableEq Thread] {system' : System Thread (Session build σ) Op Local Outcome}
  {op : Op} {outcome : Outcome} {here : Local} {session : Session build σ}

/-- The systems that threads reach who make calls and write to payloads, apart from each other. A
write asks for no lock: other threads may have the guard. -/
inductive System.Shared (sections : Sections (Session build σ) Op Local Outcome)
    (start : Session build σ) : System Thread (Session build σ) Op Local Outcome → Prop where
  | start : Shared sections start (System.start start)
  | step {system system' : System Thread (Session build σ) Op Local Outcome} {thread : Thread}
      {move : Move Op} (shared : Shared sections start system)
      (permitted : ∀ op, move = .call op → CallsApart op system)
      (stepped : System.Step sections thread move system system') : Shared sections start system'
  | write {system : System Thread (Session build σ) Op Local Outcome} {thread : Thread}
      {handle pointer index : Nat} {byte : UInt8} (shared : Shared sections start system)
      (outside : system.phase thread = .outside) (live : system.settled.live handle = some pointer)
      (permitted : CallsApart (.write handle index byte) system) :
      Shared sections start (system.writes thread handle pointer index byte)

theorem System.Shared.exclusive (shared : System.Shared sections start system) : system.Exclusive := by
  induction shared with
  | start => exact .start
  | step _ _ stepped ih => exact stepped.exclusive ih
  | write _ _ _ _ ih =>
      exact ih.keep rfl (fun _ => Iff.rfl) (fun _ _ known => known) (fun _ publishes _ => publishes)
        fun _ _ ordered => ordered

theorem System.Shared.serial (lawful : E.Lawful build.target total)
    (inplace : build.reallocInplace = true) (cuts : Cuts E memory sections)
    (good : Picoalloc.Reached build E memory start) (shared : System.Shared sections start system) :
    system.Serial (sessionCalls lawful inplace cuts) start := by
  induction shared with
  | start => exact .start good
  | step shared permitted stepped ih =>
      refine stepped.serial (fun op made => ?_) shared.exclusive ih
      obtain ⟨able, apart⟩ := permitted op made
      exact ⟨able, fun other pending waits =>
        ⟨apart other pending waits, (apart other pending waits).symm⟩⟩
  | write _ _ live allowed ih => exact ih.writes lawful inplace cuts live allowed

theorem System.Shared.forward (shared : System.Shared sections start system)
    (steps : Relation.ReflTransGen (System.Advance sections) system system') :
    System.Shared sections start system' := by
  induction steps with
  | refl => exact shared
  | tail _ step ih =>
      obtain ⟨thread, move, advances, stepped⟩ := step
      exact ih.step (by rintro op rfl; exact advances.elim) stepped

theorem System.Shared.makes (shared : System.Shared sections start system) (thread : Thread)
    (free : ∀ other, ¬ (system.phase other).Guards) (rest : system.mutex.value = system.settled)
    (outside : system.phase thread = .outside) (allowed : CallsApart op system)
    (ran : sections.Ran (sections.enter op) system.settled outcome session) :
    ∃ system', System.Shared sections start system' ∧ system'.phase = system.phase ∧
      system'.mutex.value = session ∧ system'.settled = session ∧
      system'.finished = system.finished ++ [(thread, op, outcome)] := by
  have calls : System.Shared sections start (system.goes thread (.waiting op)) :=
    shared.step (by rintro _ ⟨⟩; exact allowed) (.call outside)
  rw [← rest] at ran
  obtain ⟨system', steps, phase, same⟩ := calls.exclusive.completes
    (fun other guarding => free other ((goes_guards (by rw [outside]; exact Iff.rfl)).mp guarding))
    goes_self ran
  refine ⟨system', calls.forward steps, ?_, same⟩
  rw [phase, System.goes, Function.update_idem, ← outside, Function.update_eq_self]

theorem System.Shared.stops (shared : System.Shared sections start system) (thread : Thread)
    (free : ∀ other, ¬ (system.phase other).Guards) (rest : system.mutex.value = system.settled)
    (outside : system.phase thread = .outside) (allowed : CallsApart op system)
    (begun : sections.Begun op system.settled here session) :
    ∃ system', System.Shared sections start system' ∧
      system'.phase = Function.update system.phase thread (.holding op here) ∧
      system'.mutex.value = session ∧ system'.settled = system.settled ∧
      system'.finished = system.finished := by
  have calls : System.Shared sections start (system.goes thread (.waiting op)) :=
    shared.step (by rintro _ ⟨⟩; exact allowed) (.call outside)
  rw [← rest] at begun
  obtain ⟨system', steps, phase, same⟩ := calls.exclusive.enters
    (fun other guarding => free other ((goes_guards (by rw [outside]; exact Iff.rfl)).mp guarding))
    goes_self begun
  refine ⟨system', calls.forward steps, ?_, same⟩
  rw [phase, System.goes, Function.update_idem]

variable {env : σ}

/-- Any number of threads may share an allocator. Their calls, in the order in which they finish,
and the writes to their payloads among them are a sequential session with the same outcomes. A
payload has the bytes of that session while no call about it is unfinished, whatever other
threads are inside of. No access of a call faults or races with another one, no two threads are
inside a call at once, and a thread that made a call never waits for ever for the others. -/
theorem threads_share_allocator (lawful : E.Lawful build.target total)
    (inplace : build.reallocInplace = true) (cuts : Cuts E memory sections)
    (shared : System.Shared sections (Session.start build env memory) system) :
    runList (step E) (system.finished.map fun call => call.2.1) (Session.start build env memory) =
        .ok (system.finished.map fun call => call.2.2, system.settled) ∧
      Reached build E memory system.settled ∧
      ((∀ thread, ¬ (system.phase thread).Guards) → system.mutex.value = system.settled) ∧
      (∀ handle pointer bytes, system.settled.block handle = some (pointer, bytes) →
        (∀ other pending, (system.phase other).Pending pending → pending.handle ≠ some handle) →
        slice system.mutex.value.allocator.memory pointer bytes.length = bytes) ∧
      (∀ thread op here, system.phase thread = .holding op here →
        (∃ result, sections.access here system.mutex.value = .ok result) ∧
        system.mutex.flag.Ordered thread ∧
        ∀ other, (system.phase other).Guards → other = thread) ∧
      ∀ thread, system.phase thread ≠ .outside → ∃ other move system',
        move.Advances ∧ System.Step sections other move system system' := by
  have begins : Reached build E memory (Session.start build env memory) := .start ⟨env, rfl⟩
  have serial := shared.serial lawful inplace cuts begins
  obtain ⟨sequential, settled⟩ := Sections.SerialRun.sequential lawful inplace cuts begins serial.run
  refine ⟨sequential, settled, serial.settles, fun handle pointer bytes => serial.payload,
    fun thread op here holding => ?_, fun thread => serial.progress shared.exclusive⟩
  obtain ⟨only, ordered⟩ := shared.exclusive.only (Phase.guards_holding holding)
  obtain ⟨outcome, session', -, ran⟩ := serial.ran holding
  refine ⟨?_, ordered, only⟩
  cases ran with
  | finish accessed | access accessed => exact ⟨_, accessed⟩

end Calls

section Stages

inductive Stage where
  | entered (op : Op)
  | initialized (isCalloc : Bool) (align size : Nat)

def beginAllocation (E : Env σ) (isCalloc : Bool) (align size : Nat) (session : Session build σ) :
    Checked ((Stage ⊕ Outcome) × Session build σ) :=
  if align = 0 ∨ !(isPowerOfTwo align) then
    return (.inr (.pointer none), session.allocated none session.allocator)
  else do
    let (isOk, allocator) ← initializeAllocator build E session.allocator
    if !isOk then
      return (.inr (.pointer none), session.allocated none allocator)
    else
      return (.inl (.initialized isCalloc align size), { session with allocator })

/-- An allocation initializes the allocator in one access and allocates in the next. Each other
call is one access. -/
def stages (E : Env σ) : Sections (Session build σ) Op Stage Outcome where
  enter := .entered
  access stage session :=
    match stage with
    | .entered (.alloc align size) => beginAllocation E false align size session
    | .entered (.allocZeroed align size) => beginAllocation E true align size session
    | .entered op => do
        let (outcome, session') ← step E op session
        return (.inr outcome, session')
    | .initialized isCalloc align size => do
        let (pointer, allocator) ← allocInitialized build E align size isCalloc session.allocator
        return (.inr (.pointer pointer), session.allocated pointer allocator)

variable {session session' : Session build σ} {op : Op} {outcome : Outcome} {stage : Stage}

theorem stages_allocation {isCalloc : Bool} {align size : Nat} :
    (stages E).access (.entered (Op.allocation isCalloc align size)) session =
      beginAllocation E isCalloc align size session := by
  cases isCalloc <;> rfl

theorem stages_allocates (isCalloc : Bool) {align size : Nat}
    (ran : step E (Op.allocation isCalloc align size) session = .ok (outcome, session')) :
    (stages E).Ran (.entered (Op.allocation isCalloc align size)) session outcome session' := by
  rw [allocation_reads, allocImpl] at ran
  by_cases rejected : align = 0 ∨ (!isPowerOfTwo align) = true
  · rw [if_pos rejected] at ran
    cases ran
    refine .finish ?_
    rw [stages_allocation, beginAllocation, if_pos rejected]
    rfl
  rw [if_neg rejected] at ran
  obtain ⟨⟨result, s'⟩, run, done⟩ := result_done ran
  cases done
  obtain ⟨isOk, s₁, began, rest⟩ := bind_done run
  have enters : (stages E).access (.entered (Op.allocation isCalloc align size)) session =
      (if !isOk then
        return (.inr (.pointer none), session.allocated none s₁)
      else
        return (.inl (.initialized isCalloc align size), { session with allocator := s₁ }) :
        Checked ((Stage ⊕ Outcome) × Session build σ)) := by
    rw [stages_allocation, beginAllocation, if_neg rejected, began]
    rfl
  cases isOk with
  | false =>
      cases rest
      exact .finish enters
  | true =>
      refine .access enters (.finish ?_)
      have run : allocInitialized build E align size isCalloc s₁ = .ok (result, s') := rest
      simp only [stages, run]
      rfl

theorem stages_stays {next : Stage}
    (again : initializeAllocator build E session.allocator = .ok (true, session.allocator))
    (accessed : (stages E).access stage session = .ok (.inl next, session')) :
    session' = session ∧ ∀ other : Session build σ,
      initializeAllocator build E other.allocator = .ok (true, other.allocator) →
      (stages E).access stage other = .ok (.inl next, other) := by
  have begins : ∀ isCalloc align size,
      beginAllocation E isCalloc align size session = .ok (.inl next, session') →
      session' = session ∧ ∀ other : Session build σ,
        initializeAllocator build E other.allocator = .ok (true, other.allocator) →
        beginAllocation E isCalloc align size other = .ok (.inl next, other) := by
    intro isCalloc align size began
    by_cases rejected : align = 0 ∨ (!isPowerOfTwo align) = true
    · rw [beginAllocation, if_pos rejected] at began
      cases began
    · simp only [beginAllocation, if_neg rejected, again] at began
      cases began
      refine ⟨rfl, fun other again' => ?_⟩
      simp only [beginAllocation, if_neg rejected, again']
      rfl
  cases stage with
  | initialized =>
      obtain ⟨_, -, done⟩ := result_done accessed
      cases done
  | entered op =>
      cases op with
      | alloc align size => exact begins false align size accessed
      | allocZeroed align size => exact begins true align size accessed
      | _ =>
          obtain ⟨_, -, done⟩ := result_done accessed
          cases done

theorem stages_begun
    (again : initializeAllocator build E session.allocator = .ok (true, session.allocator))
    (begun : (stages E).Begun op session stage session') :
    session' = session ∧ ∀ other : Session build σ,
      initializeAllocator build E other.allocator = .ok (true, other.allocator) →
      (stages E).Begun op other stage other := by
  induction begun with
  | enter => exact ⟨rfl, fun _ _ => .enter⟩
  | access _ accessed ih =>
      obtain ⟨rfl, others⟩ := ih
      obtain ⟨same, others'⟩ := stages_stays again accessed
      exact ⟨same, fun other again' => (others other again').access (others' other again')⟩

theorem Sound.initialized (sound : Sound total memory session) {handle : Nat}
    (held : session.block handle ≠ none) :
    initializeAllocator build E session.allocator = .ok (true, session.allocator) := by
  rcases sound with idle | ⟨heap, serves⟩
  · exact absurd (idle.block handle) held
  · exact initializeAllocator_again serves.represents.placed

theorem stages_cuts (lawful : E.Lawful build.target total) (inplace : build.reallocInplace = true)
    (memory : Memory) : Cuts E memory (stages E : Sections (Session build σ) Op Stage Outcome) := by
  constructor
  · intro op session outcome session' ran
    cases op with
    | alloc => exact stages_allocates false ran
    | allocZeroed => exact stages_allocates true ran
    | _ =>
        refine .finish ?_
        simp only [stages, ran]
        rfl
  · intro op session stage session' handle pointer bytes reached permitted begun apart held
    have sound := reached.sound lawful inplace
    obtain ⟨live, sized, content⟩ := sound.live_of_block held
    have present : session.block handle ≠ none := by
      rw [held]
      exact Option.some_ne_none _
    -- A block is there, so the allocator is initialized and the first access changed nothing.
    obtain ⟨rfl, others⟩ := stages_begun (sound.initialized present) begun
    refine ⟨content.symm, fun index byte inside => others _ ?_⟩
    have writable : Permitted (.write handle index byte) session' :=
      ⟨pointer, bytes.length, live, sized, inside⟩
    have ran := step_wrote (E := E) live index byte
    have reached' : Reached build E memory _ := .step reached writable ran
    have kept : (session'.wrote handle pointer index byte).live handle = some pointer :=
      Function.update_self _ _ _
    obtain ⟨_, held'⟩ := (reached'.sound lawful inplace).block_of_live kept
    exact (reached'.sound lawful inplace).initialized (by rw [held']; exact Option.some_ne_none _)

end Stages

section Sample

abbrev SampleSystem := System Nat (Session sampleBuild Unit) Op Stage Outcome

theorem sample_blocks : ∃ session₁ session₂ bytes,
    step sampleEnv (.alloc 1 2) sampleStart = .ok (.pointer (some 64), session₁) ∧
      step sampleEnv (.alloc 1 0) session₁ = .ok (.pointer (some 160), session₂) ∧
      session₂.block 0 = some (64, bytes) ∧ Permitted (.write 0 5 7) session₂ ∧
      Sound 8 (fun _ => 0) session₂ := by
  obtain ⟨⟨outcome₁, session₁⟩, first, passed⟩ := check_ok
    (show check (fun result => result.1 == .pointer (some 64) &&
        check (fun next => next.1 == .pointer (some 160) && next.2.live 0 == some 64 &&
            check (fun usable => usable.1 == 64) (usableSize sampleBuild 64 next.2.allocator))
          (step sampleEnv (.alloc 1 0) result.2))
      (step sampleEnv (.alloc 1 2) sampleStart) = true by decide +kernel)
  simp only [Bool.and_eq_true, beq_iff_eq] at passed
  obtain ⟨rfl, passed⟩ := passed
  obtain ⟨⟨outcome₂, session₂⟩, second, passed⟩ := check_ok passed
  simp only [Bool.and_eq_true, beq_iff_eq] at passed
  obtain ⟨⟨rfl, live⟩, passed⟩ := passed
  obtain ⟨usable, sized, length⟩ := check_ok passed
  have reached : Reached sampleBuild sampleEnv (fun _ => 0) session₂ :=
    .step (.step (.start ⟨(), rfl⟩) (show Permitted (.alloc 1 2) _ from trivial) first)
      (show Permitted (.alloc 1 0) _ from trivial) second
  have sound := reached.sound sample_lawful rfl
  obtain ⟨bytes, held⟩ := sound.block_of_live live
  obtain ⟨-, sized', -⟩ := sound.live_of_block held
  refine ⟨session₁, session₂, bytes, first, second, held, ⟨64, bytes.length, live, sized', ?_⟩, sound⟩
  cases sized.symm.trans sized'
  have length : bytes.length = 64 := eq_of_beq length
  omega

/-- Two threads have each a block. While a third one is inside its call, the first one writes to
its block. -/
theorem threads_share_allocator_sample : ∃ system : SampleSystem,
    system.phase 2 = .holding (.alloc 1 0) (.initialized false 1 0) ∧
      system.finished = [(0, .alloc 1 2, .pointer (some 64)), (1, .alloc 1 0, .pointer (some 160)),
        (0, .write 0 5 7, .done)] ∧
      runList (step sampleEnv) [.alloc 1 2, .alloc 1 0, .write 0 5 7] sampleStart =
        .ok ([.pointer (some 64), .pointer (some 160), .done], system.settled) ∧
      ∃ bytes, system.settled.block 0 = some (64, bytes) ∧
        slice system.mutex.value.allocator.memory 64 bytes.length = bytes := by
  obtain ⟨session₁, session₂, bytes, first, second, held, writable, sound⟩ := sample_blocks
  have cuts := stages_cuts sample_lawful (show sampleBuild.reallocInplace = true from rfl) fun _ => 0
  have apart : ∀ {op} {system : SampleSystem}, Permitted op system.settled →
      system.phase = (fun _ => .outside) → CallsApart op system := by
    intro op system permitted phase
    refine ⟨permitted, fun other pending waits => ?_⟩
    rw [phase] at waits
    exact waits.elim
  have free : ∀ {system : SampleSystem}, system.phase = (fun _ => .outside) →
      ∀ other, ¬ (system.phase other).Guards := by
    intro system phase other guarding
    rw [phase] at guarding
    exact guarding
  have begins : System.Shared (stages sampleEnv) sampleStart (System.start sampleStart : SampleSystem) :=
    .start
  obtain ⟨system₁, shared₁, phase₁, value₁, settled₁, finished₁⟩ :=
    begins.makes 0 (free rfl) rfl rfl (apart (show Permitted (.alloc 1 2) _ from trivial) rfl)
      (cuts.ran _ _ _ _ first)
  obtain ⟨system₂, shared₂, phase₂, value₂, settled₂, finished₂⟩ :=
    shared₁.makes 1 (free phase₁) (value₁.trans settled₁.symm) (by rw [phase₁]; rfl)
      (apart (show Permitted (.alloc 1 0) _ from trivial) phase₁)
      (settled₁ ▸ cuts.ran _ _ _ _ second)
  rw [phase₁] at phase₂
  -- The third thread finds the allocator initialized.
  have present : session₂.block 0 ≠ none := by
    rw [held]
    exact Option.some_ne_none _
  have begun : (stages sampleEnv).Begun (.alloc 1 0) session₂ (.initialized false 1 0) session₂ := by
    refine .access .enter ?_
    simp only [stages, beginAllocation, sound.initialized present]
    rfl
  obtain ⟨system₃, shared₃, phase₃, -, settled₃, finished₃⟩ :=
    shared₂.stops 2 (free phase₂) (value₂.trans settled₂.symm) (by rw [phase₂]; rfl)
      (apart (show Permitted (.alloc 1 0) _ from trivial) phase₂) (settled₂ ▸ begun)
  rw [phase₂] at phase₃
  rw [settled₂] at settled₃
  have pending : ∀ other pending, (system₃.phase other).Pending pending → pending = .alloc 1 0 := by
    intro other pending waits
    rw [phase₃, Function.update_apply] at waits
    split at waits
    · exact waits.symm
    · exact waits.elim
  have shared : System.Shared (stages sampleEnv) sampleStart (system₃.writes 0 0 64 5 7) := by
    refine shared₃.write (by rw [phase₃]; rfl) (settled₃ ▸ (sound.live_of_block held).1)
      ⟨settled₃ ▸ writable, fun other op waits => ?_⟩
    rw [pending other op waits]
    exact fun _ _ impossible => by cases impossible
  have inside : (system₃.writes 0 0 64 5 7).phase 2 = .holding (.alloc 1 0) (.initialized false 1 0) :=
    (congrFun phase₃ 2).trans (Function.update_self _ _ _)
  have finished : (system₃.writes 0 0 64 5 7).finished = [(0, .alloc 1 2, .pointer (some 64)),
      (1, .alloc 1 0, .pointer (some 160)), (0, .write 0 5 7, .done)] := by
    rw [System.writes, finished₃, finished₂, finished₁]
    rfl
  obtain ⟨serial, reached, -, payload, -⟩ := threads_share_allocator sample_lawful rfl cuts shared
  have kept : (system₃.settled.wrote 0 64 5 7).live 0 = some 64 := by
    simp [Session.wrote, Session.rebind]
  obtain ⟨content, held'⟩ := (reached.sound sample_lawful rfl).block_of_live kept
  rw [finished] at serial
  refine ⟨system₃.writes 0 0 64 5 7, inside, finished, serial, content, held',
    payload 0 64 content held' fun other op waits => ?_⟩
  rw [pending other op waits]
  exact fun impossible => by cases impossible

end Sample

end Picoalloc
