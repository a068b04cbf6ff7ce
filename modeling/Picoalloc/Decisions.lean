import Picoalloc.Foundation.Simulations
import Picoalloc.Layouts
import Picoalloc.Panics
import Picoalloc.Twins

/-!
What a client can learn from the allocator does not depend on the bytes of payloads, on
what was in the memory before, or on where the heap is placed: two sessions that make the
same calls see the same answers, whatever they write in between.
-/

namespace Picoalloc
open CheckedMachine ByteMemory Tilings

variable {build : Build} {σ τ : Type} {E : Env σ} {F : Env τ} {total largest : Nat}
  {R : σ → τ → Prop} {memory memory' : Memory} {session : Session build σ} {session' : Session build τ}

/-- What a client learns from a call: its outcome, with a pointer as the offset from the
base, and the usable size of that pointer. -/
structure Observation where
  outcome : Outcome
  usable : Option Nat
  deriving DecidableEq, Repr

def observe (outcome : Outcome) (session : Session build σ) : Observation :=
  match outcome with
  | .pointer (some pointer) =>
      { outcome := .pointer (some (pointer - session.allocator.baseAddress))
        usable := (usableSize build pointer session.allocator).toOption.map Prod.fst }
  | .done => { outcome := .done, usable := none }
  | .pointer none => { outcome := .pointer none, usable := none }
  | .usable size => { outcome := .usable size, usable := none }

def Op.isWrite : Op → Bool
  | .write _ _ _ => true
  | _ => false

def observedStep (E : Env σ) (op : Op) (session : Session build σ) :
    Checked (Option Observation × Session build σ) := do
  let (outcome, session') ← step E op session
  return (if op.isWrite then none else some (observe outcome session'), session')

def calls (ops : List Op) : List Op := ops.filter fun op => !op.isWrite

def Op.align : Op → Option Nat
  | .alloc align _ | .allocZeroed align _ | .realloc _ align _ => some align
  | _ => none

def largestAlign (ops : List Op) : Nat :=
  ((ops.filterMap Op.align).filter isPowerOfTwo).foldr max 1

/-- The same chunks, free lists in the same order and the same allocated space, with the
same payloads live. -/
structure SameDecisions (total : Nat) (session : Session build σ) (session' : Session build τ) :
    Prop where
  initialized : session'.allocator.baseAddress = Pointer.null ↔
    session.allocator.baseAddress = Pointer.null
  chunks : session.allocator.baseAddress ≠ Pointer.null →
    session'.allocator.chunks total = session.allocator.chunks total
  freeOffsets : ∀ bin < (Bins.binConfig build.target).binCount,
    session'.allocator.freeOffsets bin total = session.allocator.freeOffsets bin total
  allocatedSpace : session'.allocator.allocatedSpace = session.allocator.allocatedSpace
  live : ∀ handle, (session'.live handle).map (· - session'.allocator.baseAddress) =
    (session.live handle).map (· - session.allocator.baseAddress)
  usable : ∀ handle pointer pointer', session.live handle = some pointer →
    session'.live handle = some pointer' → ∃ length,
      usableSize build pointer session.allocator = .ok (length, session.allocator) ∧
      usableSize build pointer' session'.allocator = .ok (length, session'.allocator)

/-- Sessions on allocators without a heap or with the same one, with the same payloads live. -/
structure Matched (R : σ → τ → Prop) (total largest : Nat) (memory memory' : Memory)
    (session : Session build σ) (session' : Session build τ) : Prop where
  left : Sound total memory session
  right : Sound total memory' session'
  allocators : Unborn R total session.allocator session'.allocator ∨
    ∃ heap, Twins R total largest session.allocator session'.allocator heap
  live : ∀ handle, SameOffset session.allocator session'.allocator (session.live handle)
    (session'.live handle)
  calls : session.calls = session'.calls

section Alignments

variable {ops : List Op} {op : Op} {align : Nat}

theorem isPowerOfTwo_dvd {n m : Nat} (power : isPowerOfTwo n = true) (power' : isPowerOfTwo m = true)
    (order : n ≤ m) : n ∣ m := by
  obtain ⟨k, rfl⟩ := isPowerOfTwo_iff.mp power
  obtain ⟨l, rfl⟩ := isPowerOfTwo_iff.mp power'
  exact pow_dvd_pow 2 ((Nat.pow_le_pow_iff_right (by decide)).mp order)

theorem foldr_max_power {powers : List Nat} (all : ∀ n ∈ powers, isPowerOfTwo n = true) :
    isPowerOfTwo (powers.foldr max 1) = true ∧ ∀ n ∈ powers, n ∣ powers.foldr max 1 := by
  induction powers with
  | nil => exact ⟨rfl, fun _ member => nomatch member⟩
  | cons first rest ih =>
      obtain ⟨power, divides⟩ := ih fun n member => all n (List.mem_cons_of_mem first member)
      have here := all first List.mem_cons_self
      rw [List.foldr_cons]
      rcases Nat.le_total first (rest.foldr max 1) with order | order
      · rw [Nat.max_eq_right order]
        refine ⟨power, List.forall_mem_cons.mpr ⟨isPowerOfTwo_dvd here power order, divides⟩⟩
      · rw [Nat.max_eq_left order]
        refine ⟨here, List.forall_mem_cons.mpr ⟨Nat.dvd_refl _, fun n member => ?_⟩⟩
        exact (divides n member).trans (isPowerOfTwo_dvd power here order)

theorem largestAlign_dvd (member : op ∈ ops) (asked : op.align = some align)
    (power : isPowerOfTwo align = true) : align ∣ largestAlign ops := by
  apply (foldr_max_power fun n member => (List.mem_filter.mp member).2).2
  exact List.mem_filter.mpr ⟨List.mem_filterMap.mpr ⟨op, member, asked⟩, power⟩

end Alignments

section Matching

variable {heap heap' : Heap} {handle : Nat} {op : Op} {outcome : Outcome} {outcome' : Outcome}
  {session₁ : Session build σ} {session₂ : Session build τ} {a b : Option Nat}
  {s s' : AllocatorState build σ} {t t' : AllocatorState build τ}

theorem Sound.serving (sound : Sound total memory session)
    (represents : Represents total session.allocator heap) : Serves total memory session heap := by
  rcases sound with idle | ⟨heap', serves⟩
  · exact absurd idle.untouched.baseAddress represents.placed.nonnull.ne'
  · obtain rfl := represents.unique serves.represents
    exact serves

theorem Sound.next (lawful : E.Lawful build.target total) (inplace : build.reallocInplace = true)
    (sound : Sound total memory session) (permitted : Permitted op session)
    (ran : step E op session = .ok (outcome, session₁)) : Sound total memory session₁ := by
  obtain ⟨_, _, run, sound'⟩ := step_sound lawful sound permitted (copies_inplace inplace op session)
  obtain ⟨rfl, rfl⟩ := Prod.mk.inj (Except.ok.inj (run.symm.trans ran))
  exact sound'

theorem SameOffset.rebase (same : SameOffset s t a b) (base : s'.baseAddress = s.baseAddress)
    (base' : t'.baseAddress = t.baseAddress) : SameOffset s' t' a b := by
  obtain ⟨place, rfl, rfl⟩ := same
  refine ⟨place, ?_, ?_⟩
  · exact congrArg (place.map ·) (funext fun p => (unit_congr base p).symm)
  · exact congrArg (place.map ·) (funext fun p => (unit_congr base' p).symm)

theorem sameOffset_update {live live' : Nat → Option Nat}
    (others : ∀ handle, SameOffset s t (live handle) (live' handle)) (here : SameOffset s t a b)
    (handle other : Nat) :
    SameOffset s t (Function.update live handle a other) (Function.update live' handle b other) := by
  by_cases same : other = handle
  · rw [same, Function.update_self, Function.update_self]
    exact here
  · rw [Function.update_of_ne same, Function.update_of_ne same]
    exact others other

theorem Matched.chunk (matched : Matched R total largest memory memory' session session')
    (twins : Twins R total largest session.allocator session'.allocator heap)
    (alive : session.live handle ≠ none) : ∃ place size, heap.Allots place size ∧
      session.live handle = some (session.allocator.unit (place + headerSize)) ∧
      session'.live handle = some (session'.allocator.unit (place + headerSize)) := by
  obtain ⟨place, size, here, live⟩ := (matched.left.serving twins.left).chunk alive
  obtain ⟨offset, same, same'⟩ := matched.live handle
  rw [live] at same
  cases offset with
  | none => cases same
  | some offset =>
      rw [Option.map_some, Option.some.injEq, unit_inj] at same
      exact ⟨place, size, here, live, same ▸ same'⟩

theorem Matched.usable (matched : Matched R total largest memory memory' session session')
    {pointer pointer' : Nat} (live : session.live handle = some pointer)
    (live' : session'.live handle = some pointer') : ∃ length,
      usableSize build pointer session.allocator = .ok (length, session.allocator) ∧
      usableSize build pointer' session'.allocator = .ok (length, session'.allocator) := by
  have alive : session.live handle ≠ none := by
    rw [live]
    exact Option.some_ne_none _
  rcases matched.allocators with unborn | ⟨heap, twins⟩
  · rcases matched.left with idle | ⟨heap, serves⟩
    · exact absurd (idle.live handle) alive
    · exact absurd unborn.left.baseAddress serves.represents.placed.nonnull.ne'
  obtain ⟨place, size, here, there, there'⟩ := matched.chunk twins alive
  cases live.symm.trans there
  cases live'.symm.trans there'
  exact ⟨_, usableSize_ok twins.left here, usableSize_ok twins.right here⟩

theorem Matched.observe (matched : Matched R total largest memory memory' session session')
    {pointer pointer' : Nat} (live : session.live handle = some pointer)
    (live' : session'.live handle = some pointer') :
    observe (.pointer (some pointer)) session = observe (.pointer (some pointer')) session' := by
  obtain ⟨length, usable, usable'⟩ := matched.usable live live'
  obtain ⟨offset, same, same'⟩ := matched.live handle
  rw [live] at same
  rw [live'] at same'
  cases offset with
  | none => cases same
  | some offset =>
      cases same
      cases same'
      simp only [Picoalloc.observe, usable, usable']
      simp only [State.unit, Nat.add_sub_cancel_left, Except.toOption, Option.map_some]

theorem Matched.decisions (matched : Matched R total largest memory memory' session session') :
    SameDecisions total session session' := by
  have live : ∀ handle, (session'.live handle).map (· - session'.allocator.baseAddress) =
      (session.live handle).map (· - session.allocator.baseAddress) := by
    intro handle
    obtain ⟨offset, same, same'⟩ := matched.live handle
    rw [same, same']
    cases offset <;> simp [State.unit]
  have usable := fun handle pointer pointer' (live : session.live handle = some pointer)
    (live' : session'.live handle = some pointer') => matched.usable live live'
  rcases matched.allocators with unborn | ⟨heap, twins⟩
  · have empty : ∀ {υ : Type} {s : AllocatorState build υ}, Uninitialized total s →
        ∀ bin < (Bins.binConfig build.target).binCount, s.freeOffsets bin total = [] := by
      intro υ s untouched bin small
      have head : s.firstInFreeList.getD bin Pointer.null = Pointer.null := by
        simp [untouched.first, List.getD_eq_getElem?_getD, small]
      rw [State.freeOffsets, State.freeList, head]
      cases total <;> simp [IntrusiveLists.follow]
    refine ⟨?_, fun initialized => absurd unborn.left.baseAddress initialized, fun bin small => ?_, ?_,
      live, usable⟩
    · rw [unborn.left.baseAddress, unborn.right.baseAddress]
    · rw [empty unborn.left bin small, empty unborn.right bin small]
    · rw [unborn.left.allocatedSpace, unborn.right.allocatedSpace]
  · refine ⟨?_, fun _ => ?_, fun bin small => ?_, ?_, live, usable⟩
    · exact iff_of_false twins.right.placed.nonnull.ne' twins.left.placed.nonnull.ne'
    · rw [twins.left.chunks, twins.right.chunks]
    · rw [twins.left.freeOffsets small, twins.right.freeOffsets small]
    · exact twins.right.space.symm.trans twins.left.space

end Matching

section Stepping

variable {heap heap' : Heap} {handle : Nat} {op : Op}

def StepsAlike (E : Env σ) (F : Env τ) (R : σ → τ → Prop) (total largest : Nat)
    (memory memory' : Memory) (op : Op) (session : Session build σ) (session' : Session build τ) :
    Prop :=
  ∃ observation session₁ session₂, observedStep E op session = .ok (some observation, session₁) ∧
    observedStep F op session' = .ok (some observation, session₂) ∧
    Matched R total largest memory memory' session₁ session₂

theorem observedStep_ok {outcome : Outcome} {session₁ : Session build σ}
    (ran : step E op session = .ok (outcome, session₁)) :
    observedStep E op session =
      .ok (if op.isWrite then none else some (observe outcome session₁), session₁) := by
  rw [observedStep, ran]
  rfl

theorem StepsAlike.intro {outcome outcome' : Outcome} {session₁ : Session build σ}
    {session₂ : Session build τ} (loud : op.isWrite = false)
    (ran : step E op session = .ok (outcome, session₁))
    (ran' : step F op session' = .ok (outcome', session₂))
    (matched : Matched R total largest memory memory' session₁ session₂)
    (same : observe outcome session₁ = observe outcome' session₂) :
    StepsAlike E F R total largest memory memory' op session session' := by
  refine ⟨observe outcome session₁, session₁, session₂, ?_, ?_, matched⟩
  · rw [observedStep_ok ran, loud]
    rfl
  · rw [observedStep_ok ran', loud, same]
    rfl

structure Sides (E : Env σ) (F : Env τ) (R : σ → τ → Prop) (build : Build) (total largest : Nat) :
    Prop where
  left : E.Lawful build.target total
  right : F.Lawful build.target total
  inplace : build.reallocInplace = true
  agrees : E.Agrees F (32 * largest) R

theorem Matched.after (sides : Sides E F R build total largest)
    (matched : Matched R total largest memory memory' session session')
    (permitted : Permitted op session) (permitted' : Permitted op session')
    {outcome outcome' : Outcome} {session₁ : Session build σ} {session₂ : Session build τ}
    (ran : step E op session = .ok (outcome, session₁))
    (ran' : step F op session' = .ok (outcome', session₂))
    (twins' : Twins R total largest session₁.allocator session₂.allocator heap')
    (live : ∀ other, SameOffset session₁.allocator session₂.allocator (session₁.live other)
      (session₂.live other)) (calls : session₁.calls = session₂.calls) :
    Matched R total largest memory memory' session₁ session₂ where
  left := matched.left.next sides.left sides.inplace permitted ran
  right := matched.right.next sides.right sides.inplace permitted' ran'
  allocators := Or.inr ⟨heap', twins'⟩
  live := live
  calls := calls

theorem Matched.allocates (sides : Sides E F R build total largest)
    (matched : Matched R total largest memory memory' session session')
    (twins : Twins R total largest session.allocator session'.allocator heap) (isCalloc : Bool)
    {align : Nat} (size : Nat) (divides : isPowerOfTwo align = true → align ∣ largest) :
    StepsAlike E F R total largest memory memory' (Op.allocation isCalloc align size) session
      session' := by
  obtain ⟨a, s₁, b, t₁, heap', run, run', twins', base, base', results⟩ :=
    alloc_together sides.agrees sides.left.constant sides.right.constant twins divides isCalloc size
  have ran : step E (Op.allocation isCalloc align size) session =
      .ok (.pointer a, session.allocated a s₁) := by
    rw [allocation_reads, run]
    rfl
  have ran' : step F (Op.allocation isCalloc align size) session' =
      .ok (.pointer b, session'.allocated b t₁) := by
    rw [allocation_reads, run']
    rfl
  have permitted : ∀ {υ : Type} (session : Session build υ),
      Permitted (Op.allocation isCalloc align size) session := by
    cases isCalloc <;> exact fun _ => trivial
  have after : Matched R total largest memory memory' (session.allocated a s₁)
      (session'.allocated b t₁) := by
    apply matched.after sides (permitted _) (permitted _) ran ran' twins' _
      (congrArg (· + 1) matched.calls)
    intro other
    have updated := sameOffset_update matched.live results.sameOffset session.calls other
    dsimp only [Session.allocated, Session.rebind]
    rw [← matched.calls]
    exact updated.rebase base base'
  have loud : (Op.allocation isCalloc align size).isWrite = false := by cases isCalloc <;> rfl
  apply StepsAlike.intro loud ran ran' after
  cases results with
  | refused => rfl
  | granted here apart =>
      apply after.observe
      · exact Function.update_self session.calls _ _
      · rw [matched.calls]
        exact Function.update_self _ _ _

theorem Matched.frees (sides : Sides E F R build total largest)
    (matched : Matched R total largest memory memory' session session')
    (twins : Twins R total largest session.allocator session'.allocator heap)
    (permitted : Permitted (.free handle) session) (permitted' : Permitted (.free handle) session') :
    StepsAlike E F R total largest memory memory' (.free handle) session session' := by
  obtain ⟨place, size, here, live, live'⟩ := matched.chunk twins permitted
  obtain ⟨_, s₁, _, t₁, heap', run, run', twins', base, base', -⟩ :=
    free_together (E := E) (F := F) sides.left.constant sides.right.constant twins here
  have ran := step_free live run
  have ran' := step_free live' run'
  refine StepsAlike.intro rfl ran ran' ?_ rfl
  apply matched.after sides permitted permitted' ran ran' twins' _ matched.calls
  intro other
  exact (sameOffset_update matched.live ⟨none, rfl, rfl⟩ handle other).rebase base base'

theorem Matched.shrinks (sides : Sides E F R build total largest)
    (matched : Matched R total largest memory memory' session session')
    (twins : Twins R total largest session.allocator session'.allocator heap) {newSize : Nat}
    (permitted : Permitted (.shrinkInplace handle newSize) session)
    (permitted' : Permitted (.shrinkInplace handle newSize) session') :
    StepsAlike E F R total largest memory memory' (.shrinkInplace handle newSize) session session' := by
  obtain ⟨place, size, here, live, live'⟩ := matched.chunk twins permitted.1
  obtain ⟨_, s₁, _, t₁, heap', run, run', twins', base, base', -⟩ :=
    shrink_together (E := E) (F := F) sides.left.constant sides.right.constant twins here
      (show newSize + headerSize < 2 ^ sizeBits by
        have bound := permitted.2
        simp only [headerSize]
        omega)
  have ran := step_shrink live run
  have ran' := step_shrink live' run'
  by_cases empty : newSize = 0
  · rw [if_pos empty] at ran ran'
    refine StepsAlike.intro rfl ran ran' ?_ rfl
    apply matched.after sides permitted permitted' ran ran' twins' _ matched.calls
    intro other
    exact (sameOffset_update matched.live ⟨none, rfl, rfl⟩ handle other).rebase base base'
  · rw [if_neg empty] at ran ran'
    refine StepsAlike.intro rfl ran ran' ?_ rfl
    apply matched.after sides permitted permitted' ran ran' twins' _ matched.calls
    intro other
    exact (sameOffset_update matched.live ⟨some _, rfl, rfl⟩ handle other).rebase base base'

theorem Matched.grows (sides : Sides E F R build total largest)
    (matched : Matched R total largest memory memory' session session')
    (twins : Twins R total largest session.allocator session'.allocator heap) {newSize : Nat}
    (permitted : Permitted (.growInplace handle newSize) session)
    (permitted' : Permitted (.growInplace handle newSize) session') :
    StepsAlike E F R total largest memory memory' (.growInplace handle newSize) session session' := by
  obtain ⟨place, size, here, live, live'⟩ := matched.chunk twins permitted
  obtain ⟨result, s₁, _, t₁, heap', run, run', twins', base, base', rfl, -⟩ :=
    grow_together sides.agrees sides.left.constant sides.right.constant twins here newSize
  have ran := step_grow live run
  have ran' := step_grow live' run'
  refine StepsAlike.intro rfl ran ran' ?_ rfl
  apply matched.after sides permitted permitted' ran ran' twins' _ matched.calls
  intro other
  exact (matched.live other).rebase base base'

theorem Matched.reallocs (sides : Sides E F R build total largest)
    (matched : Matched R total largest memory memory' session session')
    (twins : Twins R total largest session.allocator session'.allocator heap) {align newSize : Nat}
    (divides : isPowerOfTwo align = true → align ∣ largest)
    (permitted : Permitted (.realloc handle align newSize) session)
    (permitted' : Permitted (.realloc handle align newSize) session') :
    StepsAlike E F R total largest memory memory' (.realloc handle align newSize) session session' := by
  obtain ⟨place, size, here, live, live'⟩ := matched.chunk twins permitted
  obtain ⟨_, s₁, _, t₁, heap', run, run', twins', base, base', moved, rfl, rfl⟩ :=
    realloc_together sides.agrees sides.inplace sides.left.constant sides.right.constant twins here
      divides newSize
  cases moved with
  | some offset =>
      have ran := step_moved live run
      have ran' := step_moved live' run'
      have after : Matched R total largest memory memory'
          (session.rebind handle (some (session.allocator.unit offset))
            (session.prefixOf handle (32 * newSize)) s₁)
          (session'.rebind handle (some (session'.allocator.unit offset))
            (session'.prefixOf handle (32 * newSize)) t₁) := by
        apply matched.after sides permitted permitted' ran ran' twins' _ matched.calls
        intro other
        exact (sameOffset_update matched.live ⟨some _, rfl, rfl⟩ handle other).rebase base base'
      refine StepsAlike.intro rfl ran ran' after ?_
      exact after.observe (Function.update_self _ _ _) (Function.update_self _ _ _)
  | none =>
      have ran := step_unmoved live run
      have ran' := step_unmoved live' run'
      by_cases empty : newSize = 0
      · rw [if_pos empty] at ran ran'
        refine StepsAlike.intro rfl ran ran' ?_ rfl
        apply matched.after sides permitted permitted' ran ran' twins' _ matched.calls
        intro other
        exact (sameOffset_update matched.live ⟨none, rfl, rfl⟩ handle other).rebase base base'
      · rw [if_neg empty] at ran ran'
        refine StepsAlike.intro rfl ran ran' ?_ rfl
        apply matched.after sides permitted permitted' ran ran' twins' _ matched.calls
        intro other
        exact (matched.live other).rebase base base'

theorem Matched.begins (sides : Sides E F R build total largest)
    (matched : Matched R total largest memory memory' session session')
    (unborn : Unborn R total session.allocator session'.allocator) (isCalloc : Bool) {align : Nat}
    (size : Nat) (divides : isPowerOfTwo align = true → align ∣ largest) :
    StepsAlike E F R total largest memory memory' (Op.allocation isCalloc align size) session
      session' := by
  have loud : (Op.allocation isCalloc align size).isWrite = false := by cases isCalloc <;> rfl
  have permitted : ∀ {υ : Type} (session : Session build υ),
      Permitted (Op.allocation isCalloc align size) session := by
    cases isCalloc <;> exact fun _ => trivial
  -- Where the base is null there is no heap, so the next call is the first one that may succeed.
  have idle : Idle total memory session := matched.left.resolve_right fun ⟨_, serves⟩ =>
    serves.represents.placed.nonnull.ne' unborn.left.baseAddress
  have idle' : Idle total memory' session' := matched.right.resolve_right fun ⟨_, serves⟩ =>
    serves.represents.placed.nonnull.ne' unborn.right.baseAddress
  rcases unborn.alloc sides.agrees sides.left sides.right align size isCalloc with
    ⟨s₁, t₁, run, run', unborn', -, -⟩ | ⟨s₁, t₁, twins, frame, frame', same, same'⟩
  · have ran : step E (Op.allocation isCalloc align size) session =
        .ok (.pointer none, session.allocated none s₁) := by
      rw [allocation_reads, run]
      rfl
    have ran' : step F (Op.allocation isCalloc align size) session' =
        .ok (.pointer none, session'.allocated none t₁) := by
      rw [allocation_reads, run']
      rfl
    refine StepsAlike.intro loud ran ran' ?_ rfl
    refine ⟨matched.left.next sides.left sides.inplace (permitted _) ran,
      matched.right.next sides.right sides.inplace (permitted _) ran', Or.inl unborn', fun other => ?_,
      congrArg (· + 1) matched.calls⟩
    refine ⟨none, ?_, ?_⟩
    · by_cases new : other = session.calls
      · exact new ▸ Function.update_self _ _ _
      · exact (Function.update_of_ne new _ _).trans (idle.live other)
    · by_cases new : other = session'.calls
      · exact new ▸ Function.update_self _ _ _
      · exact (Function.update_of_ne new _ _).trans (idle'.live other)
  · have started : Matched R total largest memory memory' { session with allocator := s₁ }
        { session' with allocator := t₁ } := by
      refine ⟨Or.inr ⟨_, idle.started twins.left frame⟩, Or.inr ⟨_, idle'.started twins.right frame'⟩,
        Or.inr ⟨_, twins⟩, fun other => ⟨none, idle.live other, idle'.live other⟩, matched.calls⟩
    obtain ⟨observation, session₁, session₂, ran, ran', after⟩ :=
      started.allocates sides twins isCalloc size divides
    refine ⟨observation, session₁, session₂, ?_, ?_, after⟩
    · rw [← ran, observedStep, observedStep, allocation_reads, allocation_reads, same]
      rfl
    · rw [← ran', observedStep, observedStep, allocation_reads, allocation_reads, same']
      rfl

theorem Sound.writes (sound : Sound total memory session) (constant : ∀ e, E.totalSpace e = total)
    {index : Nat} {byte : UInt8} (permitted : Permitted (.write handle index byte) session) :
    ∃ heap session₁, observedStep E (.write handle index byte) session = .ok (none, session₁) ∧
      Serves total memory session heap ∧ Serves total memory session₁ heap ∧
      session₁.live = session.live ∧ session₁.calls = session.calls ∧
      session₁.allocator.baseAddress = session.allocator.baseAddress ∧
      session₁.allocator.env = session.allocator.env := by
  obtain ⟨pointer, length, live, -⟩ := id permitted
  rcases sound with idle | ⟨heap, serves⟩
  · rw [idle.live handle] at live
    cases live
  obtain ⟨outcome, session₁, heap', run, turn, serves₁⟩ := step_served (E := E) constant serves
    permitted trivial
  obtain ⟨rfl, rfl⟩ := turn.written live
  refine ⟨heap', _, observedStep_ok run, serves, serves₁, ?_, rfl, rfl, rfl⟩
  dsimp only [Session.rebind]
  rw [← live, Function.update_eq_self]

theorem Matched.writesLeft (sides : Sides E F R build total largest)
    (matched : Matched R total largest memory memory' session session') {index : Nat} {byte : UInt8}
    (permitted : Permitted (.write handle index byte) session) :
    ∃ session₁, observedStep E (.write handle index byte) session = .ok (none, session₁) ∧
      Matched R total largest memory memory' session₁ session' := by
  obtain ⟨heap, session₁, run, serves, serves₁, live, calls, base, env⟩ :=
    matched.left.writes sides.left.constant permitted
  refine ⟨session₁, run, Or.inr ⟨heap, serves₁⟩, matched.right, ?_, fun other => ?_,
    calls.trans matched.calls⟩
  · rcases matched.allocators with unborn | ⟨heap', twins⟩
    · exact absurd unborn.left.baseAddress serves.represents.placed.nonnull.ne'
    obtain rfl := serves.represents.unique twins.left
    exact Or.inr ⟨heap', serves₁.represents, twins.right, base ▸ twins.phase, env ▸ twins.env⟩
  · rw [live]
    exact (matched.live other).rebase base rfl

theorem Matched.writesRight (sides : Sides E F R build total largest)
    (matched : Matched R total largest memory memory' session session') {index : Nat} {byte : UInt8}
    (permitted : Permitted (.write handle index byte) session') :
    ∃ session₁, observedStep F (.write handle index byte) session' = .ok (none, session₁) ∧
      Matched R total largest memory memory' session session₁ := by
  obtain ⟨heap, session₁, run, serves, serves₁, live, calls, base, env⟩ :=
    matched.right.writes sides.right.constant permitted
  refine ⟨session₁, run, matched.left, Or.inr ⟨heap, serves₁⟩, ?_, fun other => ?_,
    matched.calls.trans calls.symm⟩
  · rcases matched.allocators with unborn | ⟨heap', twins⟩
    · exact absurd unborn.right.baseAddress serves.represents.placed.nonnull.ne'
    obtain rfl := serves.represents.unique twins.right
    exact Or.inr ⟨heap', twins.left, serves₁.represents, base ▸ twins.phase, env ▸ twins.env⟩
  · rw [live]
    exact (matched.live other).rebase rfl base

/-- Every call that both sessions take is taken alike. -/
theorem Matched.steps (sides : Sides E F R build total largest)
    (matched : Matched R total largest memory memory' session session') (loud : op.isWrite = false)
    (divides : ∀ align, op.align = some align → isPowerOfTwo align = true → align ∣ largest)
    (permitted : Permitted op session) (permitted' : Permitted op session') :
    StepsAlike E F R total largest memory memory' op session session' := by
  rcases matched.allocators with unborn | ⟨heap, twins⟩
  · have dead : ∀ handle, session.live handle = none := by
      rcases matched.left with idle | ⟨heap, serves⟩
      · exact idle.live
      · exact absurd unborn.left.baseAddress serves.represents.placed.nonnull.ne'
    cases op with
    | alloc align size => exact matched.begins sides unborn false size (divides align rfl)
    | allocZeroed align size => exact matched.begins sides unborn true size (divides align rfl)
    | free handle => exact absurd (dead handle) permitted
    | shrinkInplace handle newSize => exact absurd (dead handle) permitted.1
    | growInplace handle newSize => exact absurd (dead handle) permitted
    | realloc handle align newSize => exact absurd (dead handle) permitted
    | write => cases loud
  · cases op with
    | alloc align size => exact matched.allocates sides twins false size (divides align rfl)
    | allocZeroed align size => exact matched.allocates sides twins true size (divides align rfl)
    | free handle => exact matched.frees sides twins permitted permitted'
    | shrinkInplace handle newSize => exact matched.shrinks sides twins permitted permitted'
    | growInplace handle newSize => exact matched.grows sides twins permitted permitted'
    | realloc handle align newSize =>
        exact matched.reallocs sides twins (divides align rfl) permitted permitted'
    | write => cases loud

end Stepping

section Agreement

variable {ops ops' : List Op}

/-- Sessions simulate each other, writes aside. -/
theorem matched_simulates (sides : Sides E F R build total largest) :
    Simulates Op.isWrite (Matched R total largest memory memory' : Session build σ → Session build τ → Prop)
      (fun op session => Permitted op session ∧
        ∀ align, op.align = some align → isPowerOfTwo align = true → align ∣ largest)
      Permitted (observedStep E) (observedStep F) := by
  constructor
  · intro op session session' silent matched permitted
    cases op with
    | write handle index byte => exact matched.writesLeft sides permitted.1
    | _ => cases silent
  · intro op session session' silent matched permitted
    cases op with
    | write handle index byte => exact matched.writesRight sides permitted
    | _ => cases silent
  · intro op session session' loud matched permitted permitted'
    exact matched.steps sides loud permitted.2 permitted.1 permitted'

/-- Runs with the same calls make the same decisions. -/
theorem same_decisions (lawful : E.Lawful build.target total) (lawful' : F.Lawful build.target total)
    (inplace : build.reallocInplace = true) (same : calls ops = calls ops')
    (agrees : E.Agrees F (32 * largestAlign ops) R) {env : σ} {env' : τ} (related : R env env')
    (memory memory' : Memory)
    (permitted : PermitsList Permitted (observedStep E) ops (Session.start build env memory))
    (permitted' : PermitsList Permitted (observedStep F) ops' (Session.start build env' memory')) :
    RunAlike (SameDecisions total) (observedStep E) (observedStep F) ops ops'
      (Session.start build env memory) (Session.start build env' memory') := by
  have sides : Sides E F R build total (largestAlign ops) := ⟨lawful, lawful', inplace, agrees⟩
  have start : Matched R total (largestAlign ops) memory memory' (Session.start build env memory)
      (Session.start build env' memory') :=
    ⟨Or.inl (start_idle env memory), Or.inl (start_idle env' memory'),
      Or.inl ⟨new_uninitialized env memory, new_uninitialized env' memory', related⟩,
      fun _ => ⟨none, rfl, rfl⟩, rfl⟩
  have divides : ∀ op ∈ ops, ∀ (_ : Session build σ) align, op.align = some align →
      isPowerOfTwo align = true → align ∣ largestAlign ops := fun op member _ align asked power =>
    largestAlign_dvd member asked power
  obtain ⟨outputs, session, outputs', session', ran, ran', observed, matched⟩ :=
    (matched_simulates sides).run same start (permitted.and divides) permitted'
  exact ⟨outputs, session, outputs', session', ran, ran', observed, matched.decisions⟩

end Agreement

section Sample

def otherOps : List Op :=
  [.alloc 1 2, .write 0 9 1, .allocZeroed 2 1, .realloc 1 2 2, .free 0]

def otherEnv : Env Unit := arrayPointer .x86_64 96 256

/-- Two placements of the array, over memories of zeros and of ones. -/
theorem same_decisions_sample :
    RunAlike (SameDecisions 8) (observedStep sampleEnv) (observedStep otherEnv) sampleOps otherOps
      (Session.start sampleBuild () fun _ => 0) (Session.start sampleBuild () fun _ => 255) := by
  have lawful : otherEnv.Lawful sampleBuild.target 8 :=
    arrayPointer_lawful (by decide) (by decide) (by decide) (by decide) (by decide)
  have agrees : sampleEnv.Agrees otherEnv (32 * largestAlign sampleOps) fun _ _ => True := by
    constructor
    · rintro ⟨⟩ ⟨⟩ _
      exact ⟨iff_of_false (by decide) (by decide), by decide, trivial⟩
    · intro _ _ _ _ _ _
      exact ⟨rfl, trivial⟩
    · intro _ _ _ _ _
      trivial
  have same : calls sampleOps = calls otherOps := by decide
  have permitted : PermitsList Permitted (observedStep sampleEnv) sampleOps
      (Session.start sampleBuild () fun _ => 0) :=
    allowsList_permits Op.allowed_permitted (by decide +kernel)
  have permitted' : PermitsList Permitted (observedStep otherEnv) otherOps
      (Session.start sampleBuild () fun _ => 255) :=
    allowsList_permits Op.allowed_permitted (by decide +kernel)
  exact same_decisions sample_lawful lawful rfl same agrees trivial _ _ permitted permitted'

end Sample

end Picoalloc
