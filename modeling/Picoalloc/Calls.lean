import Picoalloc.Requests

/-!
The calls of a process whose libc functions and `GlobalAlloc` share the global allocator.
Whatever a call asks for, it rejects its arguments by itself or comes to one call on the
allocator, so that it locks the allocator once at most.
-/

namespace Picoalloc
open CheckedMachine ByteMemory Libc

/-- What a process may call, its own accesses to memory included. -/
inductive Call (target : Target) where
  | malloc (size : Nat)
  | calloc (count size : Nat)
  | alignedAlloc (align size : Nat)
  | memalign (align size : Nat)
  | posixMemalign (result align size : Nat)
  | realloc (pointer size : Nat)
  | reallocarray (pointer count size : Nat)
  | free (pointer : Nat)
  | mallocUsableSize (pointer : Nat)
  | globalAlloc (layout : Layout target)
  | globalAllocZeroed (layout : Layout target)
  | globalRealloc (pointer : Nat) (layout : Layout target) (newSize : Nat)
  | globalDealloc (pointer : Nat) (layout : Layout target)
  | read (address : Nat)
  | write (address : Nat) (byte : UInt8)

/-- What a call returns. A status is the code of `posix_memalign`, with `*result`. -/
inductive Reply where
  | done
  | pointer (pointer : Nat)
  | status (code result : Nat)
  | size (size : Nat)
  | byte (byte : UInt8)
  deriving DecidableEq, Repr

def call (build : Build) {σ : Type} (E : Env σ) (call : Call build.target) :
    LibcRun build σ Reply :=
  match call with
  | .malloc size => return .pointer (← malloc build E size)
  | .calloc count size => return .pointer (← calloc build E count size)
  | .alignedAlloc align size => return .pointer (← alignedAlloc build E align size)
  | .memalign align size => return .pointer (← memalign build E align size)
  | .posixMemalign result align size => do
      let (code, result) ← posixMemalign build E result align size
      return .status code result
  | .realloc pointer size => return .pointer (← Libc.realloc build E pointer size)
  | .reallocarray pointer count size =>
      return .pointer (← reallocarray build E pointer count size)
  | .free pointer => do
      Libc.free build E pointer
      return .done
  | .mallocUsableSize pointer => fun process => do
      -- it reads the header without the lock
      let (size, _) ← mallocUsableSize build pointer process.globalAllocator
      return (.size size, process)
  | .globalAlloc layout => return .pointer (← locked build (GlobalAlloc.alloc build E layout))
  | .globalAllocZeroed layout =>
      return .pointer (← locked build (GlobalAlloc.allocZeroed build E layout))
  | .globalRealloc pointer layout newSize =>
      return .pointer (← locked build (GlobalAlloc.realloc build E pointer layout newSize))
  | .globalDealloc pointer layout => do
      locked build (GlobalAlloc.dealloc build E pointer layout)
      return .done
  | .read address => return .byte ((← get).globalAllocator.memory address)
  | .write address byte => do
      modify fun process =>
        { process with globalAllocator := process.globalAllocator.poke address byte }
      return .done

variable {build : Build} {σ : Type} {target : Target}

namespace Call

def request (target : Target) : Call target → Option Request
  | .malloc size => some ⟨size, pointerBytes target, false, none⟩
  | .calloc count size => some ⟨count * size, 16, true, none⟩
  | .alignedAlloc align size | .memalign align size | .posixMemalign _ align size =>
      some ⟨size, align, false, none⟩
  | .realloc pointer size => reallocation pointer size
  | .reallocarray pointer count size => reallocation pointer (count * size)
  | .globalAlloc layout => some ⟨layout.size, layout.align, false, none⟩
  | .globalAllocZeroed layout => some ⟨layout.size, layout.align, true, none⟩
  | .globalRealloc pointer layout newSize => some ⟨newSize, layout.align, false, some pointer⟩
  | .free _ | .globalDealloc _ _ | .mallocUsableSize _ | .read _ | .write _ _ => none
where
  reallocation (pointer size : Nat) : Option Request :=
    if pointer = Pointer.null then some ⟨size, pointerBytes target, false, none⟩
    else if size = 0 then none
    else some ⟨size, 1, false, some pointer⟩

def releases : Call target → Option Nat
  | .free pointer | .globalDealloc pointer _ => nonNull pointer
  | .realloc pointer size => if size = 0 then nonNull pointer else none
  | .reallocarray pointer count size => if count * size = 0 then nonNull pointer else none
  | _ => none

def Invalid : Call target → Prop
  | .alignedAlloc align _ | .memalign align _ | .posixMemalign _ align _ =>
      (!(isPowerOfTwo align)) = true ∨ align < pointerBytes target
  | _ => False

def grants (pointer : Nat) : Call target → Reply
  | .posixMemalign _ _ _ => .status 0 pointer
  | _ => .pointer pointer

def refuses (error : Nat) : Call target → Reply
  | .posixMemalign result _ _ => .status error result
  | _ => .pointer Pointer.null

def freed : Call target → Reply
  | .free _ | .globalDealloc _ _ => .done
  | _ => .pointer Pointer.null

def errno (error before : Nat) : Call target → Nat
  | .posixMemalign _ _ _ | .globalAlloc _ | .globalAllocZeroed _ | .globalRealloc _ _ _ => before
  | _ => error

end Call

/-- What a call comes to before it locks the allocator: it is rejected, or one call on the
allocator. -/
inductive Plan where
  | reject (error : Nat)
  | allocate (isCalloc : Bool) (align size : Nat)
  | reallocate (pointer align size : Nat)
  | release (pointer : Nat)
  deriving DecidableEq, Repr

instance (call : Call target) : Decidable call.Invalid := by
  cases call <;> unfold Call.Invalid <;> infer_instance

def Request.plan (target : Target) (request : Request) : Plan :=
  match Size.fromBytesUsize target request.bytes, Size.fromBytesUsize target request.align with
  | some size, some align =>
      match request.old with
      | none => .allocate request.zeroed align size
      | some pointer => .reallocate pointer align size
  | _, _ => .reject ENOMEM

def Call.plan (call : Call target) : Option Plan :=
  match call.request with
  | some request => some (if call.Invalid then .reject EINVAL else request.plan target)
  | none => call.releases.map .release

section Plans

def Call.answer (build : Build) {σ : Type} (c : Call build.target) (result : Option Nat) :
    LibcRun build σ Reply :=
  match result with
  | some pointer => return c.grants pointer
  | none => fun process =>
      .ok (c.refuses ENOMEM, { process with errno := c.errno ENOMEM process.errno })

def Plan.run (build : Build) {σ : Type} (E : Env σ) (c : Call build.target) :
    Plan → LibcRun build σ Reply
  | .reject error => fun process =>
      .ok (c.refuses error, { process with errno := c.errno error process.errno })
  | .allocate isCalloc align size => do
      let result ← locked build (allocImpl build E align size isCalloc)
      c.answer build result
  | .reallocate pointer align size => do
      let result ← locked build (Picoalloc.realloc build E pointer align size)
      c.answer build result
  | .release pointer => do
      locked build (Picoalloc.free build E pointer)
      return c.freed

variable (E : Env σ)

theorem posixMemalign_plan (result align size : Nat) :
    call build E (.posixMemalign result align size) =
      Plan.run build E (.posixMemalign result align size)
        (if (!(isPowerOfTwo align)) = true ∨ align < pointerBytes build.target then .reject EINVAL
          else Request.plan build.target ⟨size, align, false, none⟩) := by
  rw [call, posixMemalign]
  split
  · rfl
  · rw [Request.plan]
    dsimp only
    cases Size.fromBytesUsize build.target size with
    | none => rfl
    | some size =>
        cases Size.fromBytesUsize build.target align with
        | none => rfl
        | some align =>
            simp only [Plan.run, bind_assoc]
            refine bind_congr fun result => ?_
            cases result <;> rfl

/-- A call that returns a pointer and reports through `errno`. -/
structure Call.Errno (c : Call target) : Prop where
  grants : ∀ pointer, c.grants pointer = .pointer pointer
  refuses : ∀ error, c.refuses error = .pointer Pointer.null
  errno : ∀ error before, c.errno error before = error
  freed : c.freed = .pointer Pointer.null

theorem outOfMemory_plan {c : Call build.target} (sets : c.Errno) :
    (return .pointer (← outOfMemory build) : LibcRun build σ Reply) =
      Plan.run build E c (.reject ENOMEM) := by
  funext process
  simp only [Plan.run, sets.refuses, sets.errno]
  rfl

theorem answer_plan {c : Call build.target} (sets : c.Errno) (result : Option Nat) :
    ((match result with
      | some pointer => return pointer
      | none => outOfMemory build : LibcRun build σ Nat) >>= fun pointer => return .pointer pointer) =
      c.answer build result := by
  cases result with
  | none =>
      funext process
      simp only [Call.answer, sets.refuses, sets.errno]
      rfl
  | some pointer =>
      rw [Call.answer, sets.grants]
      rfl

theorem alignedAlloc_plan {c : Call build.target} (sets : c.Errno) (align size : Nat) :
    (return .pointer (← alignedAlloc build E align size) : LibcRun build σ Reply) =
      Plan.run build E c
        (if (!(isPowerOfTwo align)) = true ∨ align < pointerBytes build.target then .reject EINVAL
          else Request.plan build.target ⟨size, align, false, none⟩) := by
  have failed : ∀ error, error ≠ 0 → ((do
      let (errno, result) ← (return (error, Pointer.null) : LibcRun build σ (Nat × Nat))
      if errno ≠ 0 then
        setErrno build errno
      return result : LibcRun build σ Nat) >>= fun pointer => return .pointer pointer) =
        Plan.run build E c (.reject error) := by
    intro error nonzero
    funext process
    simp only [Plan.run, sets.refuses, sets.errno, pure_bind, if_pos nonzero]
    rfl
  rw [alignedAlloc, posixMemalign]
  split
  · exact failed EINVAL (by decide)
  · rw [Request.plan]
    dsimp only
    cases Size.fromBytesUsize build.target size with
    | none => exact failed ENOMEM (by decide)
    | some size =>
        cases Size.fromBytesUsize build.target align with
        | none => exact failed ENOMEM (by decide)
        | some align =>
            simp only [Plan.run, bind_assoc]
            refine bind_congr fun result => ?_
            cases result with
            | none => exact failed ENOMEM (by decide)
            | some pointer =>
                rw [Call.answer, sets.grants]
                rfl

theorem malloc_plan {c : Call build.target} (sets : c.Errno) (size : Nat) :
    (return .pointer (← malloc build E size) : LibcRun build σ Reply) =
      Plan.run build E c
        (Request.plan build.target ⟨size, pointerBytes build.target, false, none⟩) := by
  rw [malloc, alignedAlloc_plan E sets, if_neg]
  cases build.target <;> decide

theorem overflow_plan {request : Request} (overflows : ¬ request.bytes < 2 ^ target.usizeBits) :
    request.plan target = .reject ENOMEM := by
  have none : Size.fromBytesUsize target request.bytes = none := by
    rw [Size.fromBytesUsize, if_neg]
    simp only [allocationGranularity]
    omega
  rw [Request.plan, none]

theorem calloc_plan {c : Call build.target} (sets : c.Errno) (count size : Nat) :
    (return .pointer (← calloc build E count size) : LibcRun build σ Reply) =
      Plan.run build E c (Request.plan build.target ⟨count * size, 16, true, none⟩) := by
  rw [calloc, checkedMul]
  by_cases fits : count * size < 2 ^ build.target.usizeBits
  · rw [if_pos fits, Request.plan]
    have sixteen : Size.fromBytesUsize build.target 16 = some (callocAlign build.target) :=
      (Option.some_get _).symm
    rw [sixteen]
    dsimp only
    cases Size.fromBytesUsize build.target (count * size) with
    | none => exact outOfMemory_plan E sets
    | some total =>
        simp only [Plan.run, bind_assoc]
        exact bind_congr fun result => answer_plan sets result
  · rw [if_neg fits, overflow_plan fits]
    exact outOfMemory_plan E sets

def reallocPlan (target : Target) (pointer size : Nat) : Plan :=
  match Call.request.reallocation target pointer size with
  | some request => request.plan target
  | none => .release pointer

theorem realloc_plan {c : Call build.target} (sets : c.Errno) (pointer size : Nat) :
    (return .pointer (← Libc.realloc build E pointer size) : LibcRun build σ Reply) =
      Plan.run build E c (reallocPlan build.target pointer size) := by
  rw [Libc.realloc, reallocPlan, Call.request.reallocation]
  by_cases null : pointer = Pointer.null
  · subst null
    exact malloc_plan E sets size
  rw [if_neg null, nonNull_ne null]
  dsimp only
  by_cases empty : size = 0
  · rw [if_pos empty, if_pos empty, Libc.free, nonNull_ne null]
    simp only [Plan.run, bind_assoc, sets.freed]
    rfl
  · have one : Size.fromBytesUsize build.target 1 = some (reallocAlign build.target) :=
      (Option.some_get _).symm
    rw [if_neg empty, if_neg empty]
    simp only [Request.plan, one]
    cases Size.fromBytesUsize build.target size with
    | none => exact outOfMemory_plan E sets
    | some size =>
        simp only [Plan.run, bind_assoc]
        exact bind_congr fun result => answer_plan sets result

theorem reallocarray_plan {c : Call build.target} (sets : c.Errno) (pointer count size : Nat) :
    (return .pointer (← reallocarray build E pointer count size) : LibcRun build σ Reply) =
      Plan.run build E c (reallocPlan build.target pointer (count * size)) := by
  rw [reallocarray, checkedMul]
  by_cases fits : count * size < 2 ^ build.target.usizeBits
  · rw [if_pos fits]
    exact realloc_plan E sets pointer (count * size)
  · have some_ : count * size ≠ 0 := by
      have positive := Nat.two_pow_pos build.target.usizeBits
      omega
    have overflows : reallocPlan build.target pointer (count * size) = .reject ENOMEM := by
      rw [reallocPlan, Call.request.reallocation]
      by_cases null : pointer = Pointer.null
      · rw [if_pos null]
        exact overflow_plan fits
      · rw [if_neg null, if_neg some_]
        exact overflow_plan fits
    rw [if_neg fits, overflows]
    exact outOfMemory_plan E sets

/-- A call of `GlobalAlloc`, which leaves `errno` alone. -/
structure Call.Silent (c : Call target) : Prop where
  grants : ∀ pointer, c.grants pointer = .pointer pointer
  refuses : ∀ error, c.refuses error = .pointer Pointer.null
  errno : ∀ error before, c.errno error before = before

theorem silent_plan {c : Call build.target} (silent : c.Silent) :
    (return .pointer (← locked build (return Pointer.null)) : LibcRun build σ Reply) =
      Plan.run build E c (.reject ENOMEM) := by
  funext process
  simp only [Plan.run, silent.refuses, silent.errno]
  rfl

theorem asPtr_plan {c : Call build.target} (silent : c.Silent) (run : Run build σ (Option Nat)) :
    (return .pointer (← locked build (return asPtr (← run))) : LibcRun build σ Reply) = (do
      let result ← locked build run
      c.answer build result) := by
  funext process
  cases ran : run process.globalAllocator with
  | error fault =>
      have inner : (return asPtr (← run) : Run build σ Nat) process.globalAllocator = .error fault :=
        bind_error ran
      rw [bind_error (show locked build _ process = .error fault by rw [locked, inner]; rfl),
        bind_error (show locked build run process = .error fault by rw [locked, ran]; rfl)]
  | ok done =>
      obtain ⟨result, s'⟩ := done
      have inner : (return asPtr (← run) : Run build σ Nat) process.globalAllocator =
          .ok (asPtr result, s') := bind_ok ran
      rw [bind_ok (locked_ok inner process.errno), bind_ok (locked_ok ran process.errno)]
      cases result with
      | none =>
          simp only [Call.answer, silent.refuses, silent.errno]
          rfl
      | some pointer =>
          simp only [Call.answer, silent.grants]
          rfl

theorem allocateLayout_plan {c : Call build.target} (silent : c.Silent) (isCalloc : Bool)
    (layout : Layout build.target) :
    (return .pointer (← locked build (GlobalAlloc.allocateLayout build
        (fun align size => allocImpl build E align size isCalloc) layout)) :
      LibcRun build σ Reply) =
      Plan.run build E c (Request.plan build.target ⟨layout.size, layout.align, isCalloc, none⟩) := by
  rw [GlobalAlloc.allocateLayout, Request.plan]
  dsimp only
  cases Size.fromBytesUsize build.target layout.align with
  | none => cases Size.fromBytesUsize build.target layout.size <;> exact silent_plan E silent
  | some align =>
      cases Size.fromBytesUsize build.target layout.size with
      | none => exact silent_plan E silent
      | some size => exact asPtr_plan silent _

theorem globalRealloc_plan {c : Call build.target} (silent : c.Silent) {pointer : Nat}
    (nonnull : pointer ≠ Pointer.null) (layout : Layout build.target) (newSize : Nat) :
    (return .pointer (← locked build (GlobalAlloc.realloc build E pointer layout newSize)) :
      LibcRun build σ Reply) =
      Plan.run build E c
        (Request.plan build.target ⟨newSize, layout.align, false, some pointer⟩) := by
  rw [GlobalAlloc.realloc, Request.plan, nonNull_ne nonnull]
  dsimp only
  cases Size.fromBytesUsize build.target layout.align with
  | none => cases Size.fromBytesUsize build.target newSize <;> exact silent_plan E silent
  | some align =>
      cases Size.fromBytesUsize build.target newSize with
      | none => exact silent_plan E silent
      | some size => exact asPtr_plan silent _

theorem reallocation_plan {c : Call target} {pointer size : Nat}
    (asks : c.request = Call.request.reallocation target pointer size)
    (frees : c.releases = if size = 0 then nonNull pointer else none) (valid : ¬ c.Invalid) :
    c.plan = some (reallocPlan target pointer size) := by
  rw [Call.plan, reallocPlan, asks, frees, Call.request.reallocation]
  by_cases null : pointer = Pointer.null
  · rw [if_pos null]
    simp only [if_neg valid]
  · rw [if_neg null, nonNull_ne null]
    by_cases empty : size = 0
    · rw [if_pos empty, if_pos empty]
      rfl
    · rw [if_neg empty]
      simp only [if_neg valid]

/-- Every call that has to do with the allocator rejects its arguments by itself, or makes one
call on the locked allocator. -/
theorem call_plan {c : Call build.target} {plan : Plan} (planned : c.plan = some plan)
    (nonnull : ∀ pointer layout newSize, c = .globalRealloc pointer layout newSize →
      pointer ≠ Pointer.null) : call build E c = plan.run build E c := by
  -- Only the aligned allocation functions have arguments that are invalid.
  have libc : ∀ {c : Call build.target} {request : Request}, ¬ c.Invalid →
      some (if c.Invalid then .reject EINVAL else request.plan build.target) = some plan →
      request.plan build.target = plan := by
    intro c request valid same
    rwa [if_neg valid, Option.some.injEq] at same
  cases c with
  | malloc size =>
      rw [← libc id planned]
      exact malloc_plan E ⟨fun _ => rfl, fun _ => rfl, fun _ _ => rfl, rfl⟩ size
  | calloc count size =>
      rw [← libc id planned]
      exact calloc_plan E ⟨fun _ => rfl, fun _ => rfl, fun _ _ => rfl, rfl⟩ count size
  | alignedAlloc align size =>
      rw [← Option.some.inj planned]
      exact alignedAlloc_plan E ⟨fun _ => rfl, fun _ => rfl, fun _ _ => rfl, rfl⟩ align size
  | memalign align size =>
      rw [← Option.some.inj planned]
      exact alignedAlloc_plan E ⟨fun _ => rfl, fun _ => rfl, fun _ _ => rfl, rfl⟩ align size
  | posixMemalign result align size =>
      rw [← Option.some.inj planned]
      exact posixMemalign_plan E result align size
  | realloc pointer size =>
      rw [reallocation_plan rfl rfl id, Option.some.injEq] at planned
      rw [← planned]
      exact realloc_plan E ⟨fun _ => rfl, fun _ => rfl, fun _ _ => rfl, rfl⟩ pointer size
  | reallocarray pointer count size =>
      rw [reallocation_plan rfl rfl id, Option.some.injEq] at planned
      rw [← planned]
      exact reallocarray_plan E ⟨fun _ => rfl, fun _ => rfl, fun _ _ => rfl, rfl⟩ pointer count size
  | globalAlloc layout =>
      rw [← libc id planned]
      exact allocateLayout_plan E ⟨fun _ => rfl, fun _ => rfl, fun _ _ => rfl⟩ false layout
  | globalAllocZeroed layout =>
      rw [← libc id planned]
      exact allocateLayout_plan E ⟨fun _ => rfl, fun _ => rfl, fun _ _ => rfl⟩ true layout
  | globalRealloc pointer layout newSize =>
      rw [← libc id planned]
      exact globalRealloc_plan E ⟨fun _ => rfl, fun _ => rfl, fun _ _ => rfl⟩
        (nonnull _ _ _ rfl) layout newSize
  | free pointer | globalDealloc pointer =>
      obtain ⟨address, present, rfl⟩ := Option.map_eq_some_iff.mp planned
      have frees : nonNull pointer = some address := present
      simp only [call, Libc.free, GlobalAlloc.dealloc, frees]
      rfl
  | mallocUsableSize | read | write => cases planned

end Plans

end Picoalloc
