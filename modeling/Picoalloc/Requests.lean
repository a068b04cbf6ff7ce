import Picoalloc.FrontEnds

/-!
Requests in bytes. However a front end rounds them, what it returns has at least the
bytes and the alignment that were asked for, and where it fails no block has changed.
-/

namespace Picoalloc
open CheckedMachine ByteMemory Libc

variable {build : Build} {σ : Type} {E : Env σ} {total : Nat} {memory : Memory}
  {session session' : Session build σ} {aligns : Nat → Option Nat}

/-- What a caller asks for: a number of bytes, at a multiple of an alignment, all zero or
with the bytes of an old block. -/
structure Request where
  bytes : Nat
  align : Nat
  zeroed : Bool
  old : Option Nat

def Undisturbed (s s' : AllocatorState build σ) (pointer : Nat) : Prop :=
  ∀ length, usableSize build pointer s = .ok (length, s) →
    usableSize build pointer s' = .ok (length, s') ∧
      ∀ i < length, s'.memory (pointer + i) = s.memory (pointer + i)

/-- The block at a pointer is what was asked for. -/
structure Fulfils (memory : Memory) (session : Session build σ) (request : Request) (pointer : Nat)
    (s' : AllocatorState build σ) : Prop where
  sized : ∃ length, request.bytes ≤ length ∧ usableSize build pointer s' = .ok (length, s') ∧
    mallocUsableSize build pointer s' = .ok (length, s')
  aligned : request.align ∣ pointer ∧ 32 ∣ pointer
  zeroed : request.zeroed = true → GrantsZeroed memory s'.trace → ∀ length,
    usableSize build pointer s' = .ok (length, s') → ∀ i < length, s'.memory (pointer + i) = 0
  copied : ∀ old length, request.old = some old →
    usableSize build old session.allocator = .ok (length, session.allocator) →
    ∀ i < min length request.bytes, s'.memory (pointer + i) = session.allocator.memory (old + i)
  others : ∀ handle other, session.live handle = some other → request.old ≠ some other →
    Undisturbed session.allocator s' other

structure Refuses (session : Session build σ) (s' : AllocatorState build σ) : Prop where
  undisturbed : ∀ handle pointer, session.live handle = some pointer →
    Undisturbed session.allocator s' pointer
  unchanged : session.allocator.baseAddress ≠ Pointer.null → Unchanged session.allocator s'

structure Continues (build : Build) (E : Env σ) (memory : Memory) (session : Session build σ)
    (aligns : Nat → Option Nat) (request : Request) (pointer : Nat)
    (after : Session build σ × (Nat → Option Nat)) : Prop where
  reached : TrackedReached build E memory after
  others : ∀ handle other, session.live handle = some other → request.old ≠ some other →
    after.1.live handle = some other
  obtained : pointer ≠ Pointer.null → ∃ handle, after.1.live handle = some pointer ∧
    (after.2 handle = Size.fromBytesUsize build.target request.align ∨
      session.live handle = request.old ∧ after.2 handle = aligns handle)

/-- The answer to a request: a pointer to what was asked for, or null. -/
structure Honours (E : Env σ) (memory : Memory) (session : Session build σ)
    (aligns : Nat → Option Nat) (request : Request) (pointer : Nat) (s' : AllocatorState build σ) :
    Prop where
  fulfils : pointer ≠ Pointer.null → Fulfils memory session request pointer s'
  refuses : pointer = Pointer.null → Refuses session s'
  continues : ∃ after, after.1.allocator = s' ∧
    Continues build E memory session aligns request pointer after

inductive Meets (session : Session build σ) (aligns : Nat → Option Nat) (request : Request) :
    Op → Prop where
  | allocation {isCalloc align size} (old : request.old = none)
      (bytes : request.bytes ≤ 32 * size) (zeroed : request.zeroed = true → isCalloc = true)
      (units : Size.fromBytesUsize build.target request.align = some align)
      (power : isPowerOfTwo request.align = true) :
      Meets session aligns request (Op.allocation isCalloc align size)
  | reallocation {handle pointer align size} (live : session.live handle = some pointer)
      (old : request.old = some pointer) (zeroed : request.zeroed = false)
      (bytes : request.bytes ≤ 32 * size) (nonempty : size ≠ 0)
      (units : Size.fromBytesUsize build.target request.align = some align)
      (aligned : request.align = 1 ∨ isPowerOfTwo request.align = true ∧ aligns handle = some align) :
      Meets session aligns request (.realloc handle align size)

inductive Passes (E : Env σ) (session : Session build σ) (aligns : Nat → Option Nat)
    (request : Request) : Nat → AllocatorState build σ → Prop where
  | rejected : Passes E session aligns request Pointer.null session.allocator
  | passed {op result session'} (meets : Meets session aligns request op)
      (ran : step E op session = .ok (.pointer result, session')) :
      Passes E session aligns request (asPtr result) session'.allocator

section Blocks

variable {handle pointer : Nat} {op : Op} {outcome : Outcome}

theorem Sound.payload (sound : Sound total memory session) (live : session.live handle = some pointer) :
    ∃ units, usableSizeImpl build pointer session.allocator = .ok (units, session.allocator) ∧
      usableSize build pointer session.allocator = .ok (32 * units, session.allocator) ∧
      32 ∣ pointer ∧ pointer ≠ Pointer.null ∧ session.allocator.baseAddress ≠ Pointer.null := by
  obtain ⟨heap, place, size, serves, here, rfl⟩ := sound.serves live
  have placed := serves.represents.placed
  have aligned := placed.aligned
  have nonnull := placed.nonnull
  refine ⟨size - headerSize, usableSizeImpl_ok serves.represents here,
    usableSize_ok serves.represents here, ?_, ?_, nonnull.ne'⟩
  · rw [State.unit]
    omega
  · rw [State.unit, Pointer.null] at *
    omega

theorem Sound.sized (sound : Sound total memory session) (live : session.live handle = some pointer)
    {units : Nat} (read : usableSizeImpl build pointer session.allocator = .ok (units, session.allocator)) :
    usableSize build pointer session.allocator = .ok (32 * units, session.allocator) := by
  obtain ⟨units', read', sized, -⟩ := sound.payload live
  cases read.symm.trans read'
  exact sized

theorem mallocUsableSize_eq (nonnull : pointer ≠ Pointer.null) :
    mallocUsableSize build pointer = usableSize (σ := σ) build pointer := by
  rw [mallocUsableSize, nonNull, if_neg]
  simpa [Pointer.isNull, Pointer.null] using nonnull

theorem Sound.undisturbed (lawful : E.Lawful build.target total) (sound : Sound total memory session)
    (permitted : Permitted op session) (copies : Copies E op session)
    (ran : step E op session = .ok (outcome, session')) (other : op.handle ≠ some handle)
    (live : session.live handle = some pointer) :
    session'.live handle = some pointer ∧
      Undisturbed session.allocator session'.allocator pointer := by
  have resizes : ¬ op.Resizes handle := by
    intro resizes
    cases op with
    | alloc | allocZeroed | write => exact resizes
    | free | shrinkInplace | growInplace | realloc => exact other (congrArg some resizes)
  obtain ⟨_, -, usable, -⟩ := sound.payload live
  refine ⟨(sound.kept lawful permitted copies ran resizes live usable).1, fun length sized => ?_⟩
  exact ⟨(sound.kept lawful permitted copies ran resizes live sized).2,
    sound.others lawful permitted copies ran other live sized⟩

theorem Undisturbed.refl (s : AllocatorState build σ) (pointer : Nat) : Undisturbed s s pointer :=
  fun _ sized => ⟨sized, fun _ _ => rfl⟩

theorem Atomic.refuses (sound : Sound total memory session) (atomic : Atomic total session session') :
    Refuses session session'.allocator where
  undisturbed handle pointer live length sized := by
    obtain ⟨_, -, -, -, -, initialized⟩ := sound.payload live
    obtain ⟨unchanged, same⟩ := atomic.initialized initialized
    refine ⟨(same handle pointer length live sized).2, fun i _ => ?_⟩
    rw [unchanged.memory]
  unchanged initialized := (atomic.initialized initialized).1

end Blocks

section Alignment

theorem aligned_bytes {target : Target} {bytes align pointer : Nat} (power : isPowerOfTwo bytes = true)
    (units : Size.fromBytesUsize target bytes = some align) (granular : 32 ∣ pointer)
    (nonnull : pointer ≠ Pointer.null) (aligned : pointer % Size.bytes align = 0) :
    bytes ∣ pointer := by
  obtain ⟨k, rfl⟩ := isPowerOfTwo_iff.mp power
  obtain ⟨cover, tight, -⟩ := fromBytesUsize_eq units
  rcases le_total k 5 with small | large
  · exact (Nat.pow_dvd_pow 2 small).trans granular
  have whole : 32 * align = 2 ^ k := by
    have multiple : 2 ^ 5 ∣ 2 ^ k := Nat.pow_dvd_pow 2 large
    omega
  by_cases fits : align < unitLimit
  · rw [bytes_eq fits, whole] at aligned
    exact Nat.dvd_of_mod_eq_zero aligned
  · -- From 4 GiB on nothing is left of the alignment, and only null is a multiple of it.
    have high : 32 ≤ k := by
      by_contra low
      have below : 2 ^ k < 2 ^ 32 := Nat.pow_lt_pow_right (by decide) (by omega)
      simp only [unitLimit] at fits
      omega
    have lost : Size.bytes align = 0 := by
      have multiple : 2 ^ 32 ∣ 2 ^ k := Nat.pow_dvd_pow 2 high
      simp only [Size.bytes, allocationSizeShift, sizeBits, Nat.shiftLeft_eq]
      omega
    rw [lost, Nat.mod_zero] at aligned
    exact absurd aligned nonnull

end Alignment

section Answers

variable {request : Request} {op : Op} {result : Option Nat}

theorem TrackedReached.reached (reached : TrackedReached build E memory (session, aligns)) :
    Reached build E memory session := by
  refine Reachable.invariant (fun tracked => Reached build E memory tracked.1) ?_ ?_ reached
  · rintro _ ⟨env, rfl⟩
    exact .start ⟨env, rfl⟩
  · rintro ⟨session, aligns⟩ op outcome ⟨session', aligns'⟩ before permitted ran
    obtain ⟨⟨outcome', next⟩, run, done⟩ := result_done ran
    cases done
    exact .step before permitted run

theorem Meets.permitted (meets : Meets session aligns request op) : Permitted op session := by
  cases meets with
  | @allocation isCalloc => exact allocation_permitted isCalloc _ _ session
  | reallocation live => exact fun dead => nomatch live.symm.trans dead

theorem Meets.other (meets : Meets session aligns request op) {handle other : Nat}
    (live : session.live handle = some other) (apart : request.old ≠ some other) :
    op.handle ≠ some handle := by
  cases meets with
  | @allocation isCalloc => cases isCalloc <;> exact fun named => nomatch named
  | reallocation live' old =>
      rintro ⟨⟩
      exact apart (old.trans (live'.symm.trans live))

theorem Meets.fails (meets : Meets session aligns request op) : Fails op (.pointer none) := by
  cases meets with
  | @allocation isCalloc =>
      cases isCalloc
      · exact .alloc
      · exact .allocZeroed
  | reallocation _ _ _ _ nonempty => exact .realloc nonempty

section Returned

variable {pointer : Nat}

theorem Sound.obtained {handle align : Nat} (sound : Sound total memory session)
    (aligned : AlignedLive (session, aligns)) (live : session.live handle = some pointer)
    (units : Size.fromBytesUsize build.target request.align = some align)
    (kept : request.align = 1 ∨ isPowerOfTwo request.align = true ∧ aligns handle = some align) :
    pointer % Size.bytes align = 0 := by
  rcases kept with one | ⟨-, obtained⟩
  · obtain ⟨_, -, -, granular, -⟩ := sound.payload live
    obtain ⟨cover, tight, -⟩ := fromBytesUsize_eq units
    obtain rfl : align = 1 := by omega
    exact Nat.mod_eq_zero_of_dvd granular
  · exact aligned handle align pointer obtained live

structure Block (session : Session build σ) (aligns : Nat → Option Nat) (request : Request)
    (op : Op) (pointer : Nat) (session' : Session build σ) (handle size : Nat) : Prop where
  live : session'.live handle = some pointer
  bytes : request.bytes ≤ 32 * size
  sized : usableSizeImpl build pointer session'.allocator = .ok (size, session'.allocator)
  aligned : pointer ≠ Pointer.null → 32 ∣ pointer → request.align ∣ pointer
  copied : ∀ old length, request.old = some old →
    usableSize build old session.allocator = .ok (length, session.allocator) →
    ∀ i < min length request.bytes,
      session'.allocator.memory (pointer + i) = session.allocator.memory (old + i)
  obtained : track op session session' aligns handle =
      Size.fromBytesUsize build.target request.align ∨
    session.live handle = request.old ∧ track op session session' aligns handle = aligns handle

theorem Meets.block (lawful : E.Lawful build.target total) (inplace : build.reallocInplace = true)
    (reached : TrackedReached build E memory (session, aligns)) (meets : Meets session aligns request op)
    (ran : step E op session = .ok (.pointer (some pointer), session')) :
    ∃ handle size, Block session aligns request op pointer session' handle size := by
  obtain ⟨sound, phases⟩ := reached.sound lawful inplace
  cases meets with
  | @allocation isCalloc align size old bytes zeroed units power =>
      obtain ⟨live, aligned, sized⟩ := sound.allotted lawful ran
      refine ⟨session.calls, size, live, bytes, sized, fun nonnull granular => ?_, ?_, Or.inl ?_⟩
      · exact aligned_bytes power units granular nonnull aligned
      · intro _ _ impossible
        cases old.symm.trans impossible
      · rw [units]
        cases isCalloc <;> exact Function.update_self _ _ _
  | @reallocation handle old align size live given zeroed bytes nonempty units kept =>
      have phase := sound.obtained phases live units kept
      obtain ⟨before, usable, after, payload, exactly⟩ :=
        sound.reallocs (E := E) lawful inplace live phase size
      obtain ⟨live', sized⟩ := exactly.sized pointer session' ran
      refine ⟨handle, size, live', bytes, sized, fun nonnull granular => ?_, ?_, ?_⟩
      · rcases kept with one | ⟨power, -⟩
        · rw [one]
          exact one_dvd _
        · exact aligned_bytes power units granular nonnull (exactly.aligned pointer session' ran)
      · intro old' length same usable' i inside
        cases given.symm.trans same
        cases usable'.symm.trans (sound.sized live payload.size)
        exact exactly.copied pointer session' ran i (by omega)
      · rw [track]
        split
        · exact Or.inr ⟨live.trans given.symm, rfl⟩
        · exact Or.inl ((Function.update_self _ _ _).trans units.symm)

theorem Meets.nonnull (lawful : E.Lawful build.target total) (inplace : build.reallocInplace = true)
    (reached : TrackedReached build E memory (session, aligns)) (meets : Meets session aligns request op)
    (ran : step E op session = .ok (.pointer (some pointer), session')) : pointer ≠ Pointer.null := by
  obtain ⟨handle, size, block⟩ := meets.block lawful inplace reached ran
  obtain ⟨sound', -⟩ := (reached.next meets.permitted ran).sound lawful inplace
  obtain ⟨_, -, -, -, nonnull, -⟩ := sound'.payload block.live
  exact nonnull

theorem Meets.fulfils (lawful : E.Lawful build.target total) (inplace : build.reallocInplace = true)
    (reached : TrackedReached build E memory (session, aligns)) (meets : Meets session aligns request op)
    (ran : step E op session = .ok (.pointer (some pointer), session')) :
    Fulfils memory session request pointer session'.allocator := by
  obtain ⟨sound, -⟩ := reached.sound lawful inplace
  obtain ⟨sound', -⟩ := (reached.next meets.permitted ran).sound lawful inplace
  obtain ⟨handle, size, block⟩ := meets.block lawful inplace reached ran
  obtain ⟨_, -, -, granular, nonnull, -⟩ := sound'.payload block.live
  have sized := sound'.sized block.live block.sized
  constructor
  · refine ⟨_, block.bytes, sized, ?_⟩
    rw [mallocUsableSize_eq nonnull]
    exact sized
  · exact ⟨block.aligned nonnull granular, granular⟩
  · intro wanted zeroed length sized'
    cases meets with
    | allocation old bytes calloc =>
        obtain rfl := calloc wanted
        obtain ⟨usable, zero⟩ := sound.cleared lawful ran zeroed
        cases sized'.symm.trans usable
        exact zero
    | reallocation live old unwanted => exact absurd wanted (by simp [unwanted])
  · exact block.copied
  · intro other pointer' live apart
    exact (sound.undisturbed lawful meets.permitted (copies_inplace inplace op session) ran
      (meets.other live apart) live).2

end Returned

/-- Whatever a front end passes on is honoured. -/
theorem Passes.honours (lawful : E.Lawful build.target total) (inplace : build.reallocInplace = true)
    (reached : TrackedReached build E memory (session, aligns)) {pointer : Nat}
    {s' : AllocatorState build σ} (passes : Passes E session aligns request pointer s') :
    Honours E memory session aligns request pointer s' := by
  obtain ⟨sound, -⟩ := reached.sound lawful inplace
  cases passes with
  | rejected =>
      refine ⟨absurd rfl, fun _ => ⟨fun _ _ _ => .refl _ _, fun _ => .refl _⟩,
        (session, aligns), rfl, reached, fun _ _ live _ => live, absurd rfl⟩
  | @passed op result session' meets ran =>
      have permitted := meets.permitted
      have next := reached.next permitted ran
      have others : ∀ handle other, session.live handle = some other → request.old ≠ some other →
          session'.live handle = some other := fun handle other live apart =>
        (sound.undisturbed lawful permitted (copies_inplace inplace op session) ran
          (meets.other live apart) live).1
      cases result with
      | none =>
          refine ⟨absurd rfl, fun _ => ?_, _, rfl, next, others, absurd rfl⟩
          exact (sound.atomic lawful permitted (copies_inplace inplace op session) ran
            meets.fails).refuses sound
      | some pointer =>
          obtain ⟨handle, size, block⟩ := meets.block lawful inplace reached ran
          have nonnull := meets.nonnull lawful inplace reached ran
          exact ⟨fun _ => meets.fulfils lawful inplace reached ran, fun null => absurd null nonnull,
            _, rfl, next, others, fun _ => ⟨handle, block.live, block.obtained⟩⟩

end Answers

section Calls

variable {handle pointer : Nat}

theorem Sound.allocates (lawful : E.Lawful build.target total) (sound : Sound total memory session)
    (isCalloc : Bool) (align size : Nat) : ∃ result session',
      allocImpl build E align size isCalloc session.allocator = .ok (result, session'.allocator) ∧
      step E (Op.allocation isCalloc align size) session = .ok (.pointer result, session') := by
  obtain ⟨outcome, session', ran, -⟩ := step_sound lawful sound
    (allocation_permitted isCalloc align size session) (allocation_copies E isCalloc align size session)
  have done := ran
  rw [allocation_reads] at done
  obtain ⟨⟨result, s'⟩, run, done⟩ := result_done done
  cases done
  exact ⟨result, _, run, ran⟩

theorem Sound.reallocates (lawful : E.Lawful build.target total) (inplace : build.reallocInplace = true)
    (sound : Sound total memory session) (live : session.live handle = some pointer) (align : Nat)
    {size : Nat} (nonempty : size ≠ 0) : ∃ result session',
      realloc build E pointer align size session.allocator = .ok (result, session'.allocator) ∧
      step E (.realloc handle align size) session = .ok (.pointer result, session') := by
  have permitted : Permitted (.realloc handle align size) session :=
    fun dead => nomatch live.symm.trans dead
  obtain ⟨outcome, session', ran, -⟩ :=
    step_sound lawful sound permitted (copies_inplace inplace _ session)
  have done := ran
  simp only [step, Session.onLive, live] at done
  obtain ⟨⟨result, s'⟩, run, done⟩ := result_done done
  cases result with
  | some moved =>
      cases done
      exact ⟨some moved, _, run, ran⟩
  | none =>
      dsimp only at done
      rw [if_neg nonempty] at done
      cases done
      exact ⟨none, _, run, ran⟩

theorem locked_ok {α : Type} {call : Run build σ α} {s s' : AllocatorState build σ} {result : α}
    (ran : call s = .ok (result, s')) (errno : Nat) :
    locked build call ⟨s, errno⟩ = .ok (result, ⟨s', errno⟩) := by
  rw [locked, ran]
  rfl

theorem nonNull_ne (nonnull : pointer ≠ Pointer.null) : nonNull pointer = some pointer := by
  rw [nonNull, if_neg]
  simpa [Pointer.isNull, Pointer.null] using nonnull

end Calls

section FrontEnds

def Answers (answer : Nat → AllocatorState build σ → Prop) (session : Session build σ)
    (run : Run build σ Nat) : Prop :=
  ∃ pointer s', run session.allocator = .ok (pointer, s') ∧ answer pointer s'

/-- A libc function, with its answer, that sets `errno` if it fails. -/
def Reports (answer : Nat → AllocatorState build σ → Prop) (session : Session build σ)
    (run : LibcRun build σ Nat) : Prop :=
  ∀ errno, ∃ pointer process', run ⟨session.allocator, errno⟩ = .ok (pointer, process') ∧
    answer pointer process'.globalAllocator ∧
    (pointer = Pointer.null → process'.errno = ENOMEM ∨ process'.errno = EINVAL)

/-- A libc function, with its answer, that returns a code and writes `*result` only if it
succeeds. -/
def Returns (answer : Nat → AllocatorState build σ → Prop) (session : Session build σ)
    (run : Nat → LibcRun build σ (Nat × Nat)) : Prop :=
  ∀ result errno, ∃ code result' s',
    run result ⟨session.allocator, errno⟩ = .ok ((code, result'), ⟨s', errno⟩) ∧
    answer (if code = 0 then result' else Pointer.null) s' ∧
    (code = 0 → result' ≠ Pointer.null) ∧
    (code ≠ 0 → (code = ENOMEM ∨ code = EINVAL) ∧ result' = result)

/-- Every front end answers every request. -/
structure FrontEndsHonour (E : Env σ) (memory : Memory) (session : Session build σ)
    (aligns : Nat → Option Nat) : Prop where
  alloc : ∀ layout : Layout build.target,
    Answers (Honours E memory session aligns ⟨layout.size, layout.align, false, none⟩) session
      (GlobalAlloc.alloc build E layout)
  allocZeroed : ∀ layout : Layout build.target,
    Answers (Honours E memory session aligns ⟨layout.size, layout.align, true, none⟩) session
      (GlobalAlloc.allocZeroed build E layout)
  realloc : ∀ handle pointer (layout : Layout build.target) newSize,
    session.live handle = some pointer →
    aligns handle = Size.fromBytesUsize build.target layout.align → newSize ≠ 0 →
    Answers (Honours E memory session aligns ⟨newSize, layout.align, false, some pointer⟩) session
      (GlobalAlloc.realloc build E pointer layout newSize)
  malloc : ∀ size,
    Reports (Honours E memory session aligns ⟨size, pointerBytes build.target, false, none⟩) session
      (Libc.malloc build E size)
  calloc : ∀ count size,
    Reports (Honours E memory session aligns ⟨count * size, 16, true, none⟩) session
      (Libc.calloc build E count size)
  alignedAlloc : ∀ align size,
    Reports (Honours E memory session aligns ⟨size, align, false, none⟩) session
      (Libc.alignedAlloc build E align size)
  memalign : ∀ align size,
    Reports (Honours E memory session aligns ⟨size, align, false, none⟩) session
      (Libc.memalign build E align size)
  posixMemalign : ∀ align size,
    Returns (Honours E memory session aligns ⟨size, align, false, none⟩) session
      fun result => Libc.posixMemalign build E result align size
  libcRealloc : ∀ handle pointer size, session.live handle = some pointer → size ≠ 0 →
    Reports (Honours E memory session aligns ⟨size, 1, false, some pointer⟩) session
      (Libc.realloc build E pointer size)
  libcReallocNull : ∀ size,
    Reports (Honours E memory session aligns ⟨size, pointerBytes build.target, false, none⟩) session
      (Libc.realloc build E Pointer.null size)
  reallocarray : ∀ handle pointer count size, session.live handle = some pointer →
    count * size ≠ 0 →
    Reports (Honours E memory session aligns ⟨count * size, 1, false, some pointer⟩) session
      (Libc.reallocarray build E pointer count size)
  reallocarrayNull : ∀ count size,
    Reports (Honours E memory session aligns ⟨count * size, pointerBytes build.target, false, none⟩)
      session (Libc.reallocarray build E Pointer.null count size)

section Shapes

variable {answer answer' : Nat → AllocatorState build σ → Prop}

theorem Answers.imp {run : Run build σ Nat} (answers : Answers answer session run)
    (implies : ∀ pointer s', answer pointer s' → answer' pointer s') : Answers answer' session run := by
  obtain ⟨pointer, s', ran, holds⟩ := answers
  exact ⟨pointer, s', ran, implies _ _ holds⟩

theorem Reports.imp {run : LibcRun build σ Nat} (reports : Reports answer session run)
    (implies : ∀ pointer s', answer pointer s' → answer' pointer s') : Reports answer' session run := by
  intro errno
  obtain ⟨pointer, process', ran, holds, reason⟩ := reports errno
  exact ⟨pointer, process', ran, implies _ _ holds, reason⟩

theorem Returns.imp {run : Nat → LibcRun build σ (Nat × Nat)} (returns : Returns answer session run)
    (implies : ∀ pointer s', answer pointer s' → answer' pointer s') : Returns answer' session run := by
  intro result errno
  obtain ⟨code, result', s', ran, holds, written, failed⟩ := returns result errno
  exact ⟨code, result', s', ran, implies _ _ holds, written, failed⟩

theorem outOfMemory_reports (rejected : answer Pointer.null session.allocator) :
    Reports answer session (outOfMemory build) :=
  fun _ => ⟨Pointer.null, ⟨session.allocator, ENOMEM⟩, rfl, rejected, fun _ => Or.inl rfl⟩

theorem code_returns {code : Nat} (reason : code = ENOMEM ∨ code = EINVAL)
    (rejected : answer Pointer.null session.allocator) :
    Returns answer session fun result => pure (code, result) := by
  have failed : code ≠ 0 := by rcases reason with rfl | rfl <;> decide
  intro result errno
  refine ⟨code, result, session.allocator, rfl, ?_, fun zero => absurd zero failed,
    fun _ => ⟨reason, rfl⟩⟩
  rw [if_neg failed]
  exact rejected

theorem Returns.reports {align size : Nat}
    (returns : Returns answer session fun result => posixMemalign build E result align size) :
    Reports answer session (alignedAlloc build E align size) := by
  intro errno
  obtain ⟨code, result, s', run, holds, written, failed⟩ := returns Pointer.null errno
  rw [alignedAlloc, bind_ok run]
  dsimp only
  by_cases zero : code = 0
  · rw [if_neg (not_not.mpr zero)]
    rw [if_pos zero] at holds
    exact ⟨result, ⟨s', errno⟩, rfl, holds, fun null => absurd null (written zero)⟩
  · rw [if_pos zero]
    rw [if_neg zero] at holds
    obtain ⟨reason, rfl⟩ := failed zero
    exact ⟨Pointer.null, ⟨s', code⟩, rfl, holds, fun _ => reason⟩

theorem reallocarray_reports {pointer count size : Nat}
    (rejected : answer Pointer.null session.allocator)
    (reports : Reports answer session (Libc.realloc build E pointer (count * size))) :
    Reports answer session (reallocarray build E pointer count size) := by
  rw [reallocarray, checkedMul]
  by_cases fits : count * size < 2 ^ build.target.usizeBits
  · rw [if_pos fits]
    exact reports
  · rw [if_neg fits]
    exact outOfMemory_reports rejected

end Shapes

section Functions

variable {request : Request}

theorem allocateLayout_passes (lawful : E.Lawful build.target total)
    (sound : Sound total memory session) (isCalloc : Bool) (layout : Layout build.target) :
    Answers (Passes E session aligns ⟨layout.size, layout.align, isCalloc, none⟩) session
      (GlobalAlloc.allocateLayout build
        (fun align size => allocImpl build E align size isCalloc) layout) := by
  rw [GlobalAlloc.allocateLayout]
  split
  · exact ⟨_, _, rfl, .rejected⟩
  next align units =>
  split
  · exact ⟨_, _, rfl, .rejected⟩
  next size admitted =>
  obtain ⟨result, session', run, ran⟩ := sound.allocates lawful isCalloc align size
  have covers := (fromBytesUsize_eq admitted).1
  refine ⟨asPtr result, session'.allocator, ?_, .passed (.allocation rfl covers id units layout.power) ran⟩
  rw [bind_ok run]
  rfl

theorem globalRealloc_passes (lawful : E.Lawful build.target total)
    (inplace : build.reallocInplace = true) (sound : Sound total memory session)
    {handle pointer newSize : Nat} (live : session.live handle = some pointer)
    (layout : Layout build.target)
    (obtained : aligns handle = Size.fromBytesUsize build.target layout.align)
    (nonempty : newSize ≠ 0) :
    Answers (Passes E session aligns ⟨newSize, layout.align, false, some pointer⟩) session
      (GlobalAlloc.realloc build E pointer layout newSize) := by
  obtain ⟨_, -, -, -, nonnull, -⟩ := sound.payload live
  rw [GlobalAlloc.realloc, nonNull_ne nonnull]
  dsimp only
  split
  · exact ⟨_, _, rfl, .rejected⟩
  next align units =>
  split
  · exact ⟨_, _, rfl, .rejected⟩
  next size admitted =>
  have covers := (fromBytesUsize_eq admitted).1
  have some_ : size ≠ 0 := by omega
  obtain ⟨result, session', run, ran⟩ := sound.reallocates lawful inplace live align some_
  refine ⟨asPtr result, session'.allocator, ?_, .passed (.reallocation live rfl rfl covers some_ units
    (Or.inr ⟨layout.power, obtained.trans units⟩)) ran⟩
  rw [bind_ok run]
  rfl

/-- A libc call on the allocator, and `ENOMEM` where it fails. -/
theorem call_passes (lawful : E.Lawful build.target total) (inplace : build.reallocInplace = true)
    (reached : TrackedReached build E memory (session, aligns)) {call : Run build σ (Option Nat)}
    {op : Op} {result : Option Nat} (run : call session.allocator = .ok (result, session'.allocator))
    (ran : step E op session = .ok (.pointer result, session'))
    (meets : Meets session aligns request op) :
    Reports (Passes E session aligns request) session (do
      match ← locked build call with
      | some pointer => return pointer
      | none => outOfMemory build) := by
  intro errno
  rw [bind_ok (locked_ok run errno)]
  have passes : Passes E session aligns request (asPtr result) session'.allocator := .passed meets ran
  cases result with
  | none => exact ⟨Pointer.null, ⟨session'.allocator, ENOMEM⟩, rfl, passes, fun _ => Or.inl rfl⟩
  | some pointer => exact ⟨pointer, ⟨session'.allocator, errno⟩, rfl, passes,
      fun null => absurd null (meets.nonnull lawful inplace reached ran)⟩

theorem calloc_passes (lawful : E.Lawful build.target total) (inplace : build.reallocInplace = true)
    (reached : TrackedReached build E memory (session, aligns)) (count size : Nat) :
    Reports (Passes E session aligns ⟨count * size, 16, true, none⟩) session
      (Libc.calloc build E count size) := by
  rw [Libc.calloc, checkedMul]
  by_cases fits : count * size < 2 ^ build.target.usizeBits
  · rw [if_pos fits]
    dsimp only
    split
    · exact outOfMemory_reports .rejected
    next units admitted =>
    obtain ⟨sound, -⟩ := reached.sound lawful inplace
    obtain ⟨result, session', run, ran⟩ :=
      sound.allocates lawful true (callocAlign build.target) units
    have covers := (fromBytesUsize_eq admitted).1
    have sixteen : Size.fromBytesUsize build.target 16 = some (callocAlign build.target) :=
      (Option.some_get _).symm
    have power : isPowerOfTwo 16 = true := by decide
    exact call_passes lawful inplace reached run ran (.allocation rfl covers id sixteen power)
  · rw [if_neg fits]
    exact outOfMemory_reports .rejected

theorem posixMemalign_passes (lawful : E.Lawful build.target total)
    (inplace : build.reallocInplace = true)
    (reached : TrackedReached build E memory (session, aligns)) (align size : Nat) :
    Returns (Passes E session aligns ⟨size, align, false, none⟩) session
      fun result => Libc.posixMemalign build E result align size := by
  intro result errno
  beta_reduce
  rw [Libc.posixMemalign]
  by_cases invalid : !(isPowerOfTwo align) ∨ align < pointerBytes build.target
  · rw [if_pos invalid]
    exact code_returns (Or.inr rfl) .rejected result errno
  rw [if_neg invalid]
  cases admitted : Size.fromBytesUsize build.target size with
  | none => exact code_returns (Or.inl rfl) .rejected result errno
  | some units =>
      cases converted : Size.fromBytesUsize build.target align with
      | none => exact code_returns (Or.inl rfl) .rejected result errno
      | some alignUnits =>
          obtain ⟨sound, -⟩ := reached.sound lawful inplace
          obtain ⟨answer, session', run, ran⟩ := sound.allocates lawful false alignUnits units
          have power : isPowerOfTwo align = true := by simpa using (not_or.mp invalid).1
          have meets : Meets session aligns ⟨size, align, false, none⟩
              (Op.allocation false alignUnits units) :=
            .allocation rfl (fromBytesUsize_eq admitted).1 id converted power
          have called : alloc build E alignUnits units session.allocator =
            .ok (answer, session'.allocator) := run
          have passes : Passes E session aligns ⟨size, align, false, none⟩ (asPtr answer)
            session'.allocator := .passed meets ran
          dsimp only
          rw [bind_ok (locked_ok called errno)]
          cases answer with
          | none => exact ⟨ENOMEM, result, session'.allocator, rfl, passes,
              fun zero => absurd zero (by decide), fun _ => ⟨Or.inl rfl, rfl⟩⟩
          | some pointer => exact ⟨0, pointer, session'.allocator, rfl, passes,
              fun _ => meets.nonnull lawful inplace reached ran, absurd rfl⟩

theorem libcRealloc_passes (lawful : E.Lawful build.target total)
    (inplace : build.reallocInplace = true)
    (reached : TrackedReached build E memory (session, aligns)) {handle pointer size : Nat}
    (live : session.live handle = some pointer) (nonempty : size ≠ 0) :
    Reports (Passes E session aligns ⟨size, 1, false, some pointer⟩) session
      (Libc.realloc build E pointer size) := by
  obtain ⟨sound, -⟩ := reached.sound lawful inplace
  obtain ⟨_, -, -, -, nonnull, -⟩ := sound.payload live
  rw [Libc.realloc, nonNull_ne nonnull]
  dsimp only
  rw [if_neg nonempty]
  split
  · exact outOfMemory_reports .rejected
  next units admitted =>
  have covers := (fromBytesUsize_eq admitted).1
  have some_ : units ≠ 0 := by omega
  obtain ⟨result, session', run, ran⟩ :=
    sound.reallocates lawful inplace live (reallocAlign build.target) some_
  have one : Size.fromBytesUsize build.target 1 = some (reallocAlign build.target) :=
    (Option.some_get _).symm
  exact call_passes lawful inplace reached run ran
    (.reallocation live rfl rfl covers some_ one (Or.inl rfl))

end Functions

/-- Byte-level requests are honoured or refused, whatever their arguments are. -/
theorem front_ends_honour (lawful : E.Lawful build.target total) (inplace : build.reallocInplace = true)
    (reached : TrackedReached build E memory (session, aligns)) :
    FrontEndsHonour E memory session aligns := by
  obtain ⟨sound, -⟩ := reached.sound lawful inplace
  have honours : ∀ request pointer s', Passes E session aligns request pointer s' →
      Honours E memory session aligns request pointer s' := fun request pointer s' passes =>
    passes.honours lawful inplace reached
  have posix := fun align size =>
    (posixMemalign_passes (E := E) lawful inplace reached align size).imp (honours _)
  have malloc : ∀ size,
      Reports (Honours E memory session aligns ⟨size, pointerBytes build.target, false, none⟩) session
        (Libc.malloc build E size) := fun size => (posix _ size).reports
  have resized := fun handle pointer size live nonempty =>
    (@libcRealloc_passes _ _ E _ memory session aligns lawful inplace reached handle pointer size live
      nonempty).imp (honours _)
  constructor
  · intro layout
    exact (allocateLayout_passes lawful sound false layout).imp (honours _)
  · intro layout
    exact (allocateLayout_passes lawful sound true layout).imp (honours _)
  · intro handle pointer layout newSize live obtained nonempty
    exact (globalRealloc_passes lawful inplace sound live layout obtained nonempty).imp (honours _)
  · exact malloc
  · intro count size
    exact (calloc_passes lawful inplace reached count size).imp (honours _)
  · intro align size
    exact (posix align size).reports
  · intro align size
    exact (posix align size).reports
  · exact posix
  · exact resized
  · exact malloc
  · intro handle pointer count size live nonempty
    exact reallocarray_reports (honours _ _ _ .rejected) (resized handle pointer _ live nonempty)
  · intro count size
    exact reallocarray_reports (honours _ _ _ .rejected) (malloc _)

/-- The front ends over an array with two units allocated. -/
theorem front_ends_honour_sample : ∃ session pointer outcome,
    step sampleEnv (.alloc 1 2) sampleStart = .ok (outcome, session) ∧
      session.live 0 = some pointer ∧
      FrontEndsHonour sampleEnv (fun _ => 0) session (Function.update (fun _ => none) 0 (some 1)) := by
  obtain ⟨session, pointer, outcome, run, live, reached⟩ := sample_tracked
  exact ⟨session, pointer, outcome, run, live, front_ends_honour sample_lawful rfl reached⟩

end FrontEnds

end Picoalloc
