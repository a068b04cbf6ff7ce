import Picoalloc.Initialization

/-!
The environment of wasm32, where an address and a number of bytes are `usize` values of
32 bits and a release build keeps them modulo `2 ^ 32`. The host is a parameter: it may
refuse any growth, and never lets the memory exceed 65536 pages.
-/

namespace Picoalloc.Wasm

def pageSize : Nat := 64 * 1024
def maxPages : Nat := 65536
def usizeMax : Nat := 2 ^ 32 - 1

structure Linear where
  pages : Nat
  asked : List Nat
  deriving DecidableEq, Repr

/-- `memory_grow(0, delta)` of the host: what it returns, and how many pages there are then. -/
structure Host where
  memoryGrow : Nat → Nat → Nat × Nat
  lawful : ∀ pages delta, memoryGrow pages delta = (usizeMax, pages) ∨
    (memoryGrow pages delta).1 ≠ usizeMax ∧ (memoryGrow pages delta).2 = pages + delta ∧
      pages + delta ≤ maxPages

def nextMultipleOf (x rhs : Nat) : Nat :=
  if x % rhs = 0 then x else (x + (rhs - x % rhs)) % 2 ^ 32

def expandMemoryUntil (host : Host) (base size : Nat) (linear : Linear) : Bool × Linear :=
  let currentSize := (linear.pages * pageSize) % 2 ^ 32
  let requiredSize := (base + Size.bytes size) % 2 ^ 32
  if currentSize ≥ requiredSize then (true, linear)
  else
    let delta := nextMultipleOf (requiredSize - currentSize) pageSize
    let (result, pages) := host.memoryGrow linear.pages (delta / pageSize)
    (result != usizeMax, { pages, asked := delta / pageSize :: linear.asked })

/-- The environment `System<SIZE>`, over the address of `__heap_base`. -/
def system (host : Host) (heapBase size : Nat) : Env Linear where
  totalSpace _ := (Size.fromBytesUsize .wasm32 size).getD 0
  allocateAddressSpace linear := (nextMultipleOf heapBase 32, linear)
  expandMemoryUntil linear base size := expandMemoryUntil host base size linear
  freeAddressSpace linear _ := linear

/-- What a request for `needed` bytes from address zero on has to do. -/
structure Provides (host : Host) (needed : Nat) (linear : Linear) (result : Bool × Linear) : Prop where
  granted : result.1 = true → needed ≤ pageSize * result.2.pages
  enough : needed ≤ pageSize * linear.pages → result = (true, linear)
  least : pageSize * linear.pages < needed →
    ∃ delta, IsLeast {delta | needed ≤ pageSize * (linear.pages + delta)} delta ∧
      (result.2.asked = delta :: linear.asked ∧
          (result.1 = false → (host.memoryGrow linear.pages delta).1 = usizeMax) ∨
        result = (false, linear) ∧ maxPages < linear.pages + delta)

/-- Nothing wraps: there is a page less than four GiB, the request ends below four GiB, and
rounding it up to a page does too. -/
def Unwrapped (pages needed : Nat) : Prop :=
  pages < maxPages ∧ needed < 2 ^ 32 ∧ (pages = 0 → needed ≤ 2 ^ 32 - pageSize)

/-- The memory is as large as it can be, and the request wraps as the size of it does. -/
def Saturated (pages needed : Nat) : Prop :=
  pages = maxPages ∧ (needed = 0 ∨ 2 ^ 32 ≤ needed ∧ needed ≤ 2 ^ 33 - pageSize)

section Rounding

variable {x : Nat}

theorem nextMultipleOf_pages (small : x < 2 ^ 32) :
    nextMultipleOf x pageSize / pageSize = (x + (pageSize - 1)) / pageSize % maxPages := by
  rw [nextMultipleOf]
  by_cases whole : x % pageSize = 0
  · rw [if_pos whole]
    simp only [pageSize, maxPages] at *
    omega
  · rw [if_neg whole]
    simp only [pageSize, maxPages] at *
    omega

theorem least_pages {needed pages : Nat} (missing : pageSize * pages < needed) :
    IsLeast {delta | needed ≤ pageSize * (pages + delta)}
      ((needed - pageSize * pages + (pageSize - 1)) / pageSize) := by
  constructor
  · simp only [pageSize, Set.mem_ofPred_eq] at *
    omega
  · intro delta enough
    simp only [pageSize, Set.mem_ofPred_eq] at *
    omega

theorem total_small {bytes total : Nat} (units : Size.fromBytesUsize .wasm32 bytes = some total) :
    total < unitLimit := by
  simp only [Size.fromBytesUsize, allocationGranularity, allocationSizeShift, sizeBits,
    Nat.shiftRight_eq_div_pow, Target.usizeBits] at units
  split at units
  · split at units
    · cases units
    · cases units
      simp only [unitLimit]
      omega
  · cases units

end Rounding

section Hosts

theorem system_lawful {host : Host} {heapBase bytes total : Nat}
    (units : Size.fromBytesUsize .wasm32 bytes = some total) (positive : 0 < total)
    (inside : nextMultipleOf heapBase 32 + 32 * total < 2 ^ 32) :
    (system host heapBase bytes).Lawful .wasm32 total where
  constant _ := by simp [system, units]
  positive := positive
  small := total_small units
  base _ := by
    refine Or.inr ⟨?_, inside⟩
    simp only [system, nextMultipleOf]
    split <;> omega

def eager : Host where
  memoryGrow pages delta :=
    if pages + delta ≤ maxPages then (pages, pages + delta) else (usizeMax, pages)
  lawful pages delta := by
    split
    · next room =>
      refine Or.inr ⟨?_, rfl, room⟩
      simp only [maxPages, usizeMax] at *
      omega
    · exact Or.inl rfl

def refusing : Host where
  memoryGrow pages _ := (usizeMax, pages)
  lawful _ _ := Or.inl rfl

end Hosts

section Requests

variable {host : Host} {base size : Nat} {linear : Linear}

theorem expandMemoryUntil_enough (small : size < unitLimit)
    (enough : (base + 32 * size) % 2 ^ 32 ≤ pageSize * linear.pages % 2 ^ 32) :
    expandMemoryUntil host base size linear = (true, linear) := by
  rw [expandMemoryUntil, bytes_eq small, Nat.mul_comm linear.pages]
  exact if_pos enough

theorem expandMemoryUntil_asks (small : size < unitLimit) {delta : Nat}
    (missing : pageSize * linear.pages % 2 ^ 32 < (base + 32 * size) % 2 ^ 32)
    (rounded : ((base + 32 * size) % 2 ^ 32 - pageSize * linear.pages % 2 ^ 32 + (pageSize - 1)) /
      pageSize % maxPages = delta) :
    expandMemoryUntil host base size linear = ((host.memoryGrow linear.pages delta).1 != usizeMax,
      ⟨(host.memoryGrow linear.pages delta).2, delta :: linear.asked⟩) := by
  have below : (base + 32 * size) % 2 ^ 32 < 2 ^ 32 := Nat.mod_lt _ (by decide)
  rw [expandMemoryUntil, bytes_eq small, Nat.mul_comm linear.pages]
  dsimp only
  rw [if_neg (by omega), nextMultipleOf_pages (by omega), rounded]

/-- A request that asks for the pages that are missing does what it has to. -/
theorem provides_least {needed delta : Nat} (missing : pageSize * linear.pages < needed)
    (least : (needed - pageSize * linear.pages + (pageSize - 1)) / pageSize = delta) :
    Provides host needed linear ((host.memoryGrow linear.pages delta).1 != usizeMax,
      ⟨(host.memoryGrow linear.pages delta).2, delta :: linear.asked⟩) := by
  have reaches := least_pages missing
  rw [least] at reaches
  constructor
  · intro granted
    rcases host.lawful linear.pages delta with refused | ⟨-, grown, -⟩
    · rw [refused] at granted
      cases granted
    · rw [grown]
      exact reaches.1
  · intro enough
    omega
  · intro _
    refine ⟨delta, reaches, Or.inl ⟨rfl, fun refused => ?_⟩⟩
    simpa using refused

theorem provides_enough {needed : Nat} (enough : needed ≤ pageSize * linear.pages) :
    Provides host needed linear (true, linear) := by
  constructor
  · exact fun _ => enough
  · exact fun _ => rfl
  · intro missing
    omega

theorem Unwrapped.provides (small : size < unitLimit)
    (unwrapped : Unwrapped linear.pages (base + 32 * size)) :
    Provides host (base + 32 * size) linear (expandMemoryUntil host base size linear) := by
  obtain ⟨pages, needed, rounds⟩ := unwrapped
  have here : pageSize * linear.pages % 2 ^ 32 = pageSize * linear.pages := by
    simp only [pageSize, maxPages] at *
    omega
  have there : (base + 32 * size) % 2 ^ 32 = base + 32 * size := Nat.mod_eq_of_lt needed
  by_cases enough : base + 32 * size ≤ pageSize * linear.pages
  · rw [expandMemoryUntil_enough small (by omega)]
    exact provides_enough enough
  · -- One page at least is there, or the request leaves room to round it up.
    rw [expandMemoryUntil_asks small (by omega) rfl, here, there]
    apply provides_least (by omega)
    simp only [pageSize, maxPages] at *
    omega

theorem Saturated.provides (small : size < unitLimit)
    (saturated : Saturated linear.pages (base + 32 * size)) :
    Provides host (base + 32 * size) linear (expandMemoryUntil host base size linear) := by
  obtain ⟨pages, needed⟩ := saturated
  have here : pageSize * linear.pages % 2 ^ 32 = 0 := by
    rw [pages]
    rfl
  have all : pageSize * linear.pages = 2 ^ 32 := by
    rw [pages]
    rfl
  by_cases enough : base + 32 * size ≤ pageSize * linear.pages
  · rw [expandMemoryUntil_enough small (by omega)]
    exact provides_enough enough
  · have wrapped : (base + 32 * size) % 2 ^ 32 = base + 32 * size - 2 ^ 32 := by
      simp only [pageSize] at *
      omega
    rw [expandMemoryUntil_asks small (by omega) rfl, here, wrapped]
    apply provides_least (by omega)
    simp only [pageSize, maxPages] at *
    omega

/-- What the answers to a host that grants and to one that refuses tell of a request. -/
theorem provides_only (small : size < unitLimit) (address : base < 2 ^ 32)
    (present : linear.pages ≤ maxPages)
    (provides : ∀ host, Provides host (base + 32 * size) linear
      (expandMemoryUntil host base size linear)) :
    Unwrapped linear.pages (base + 32 * size) ∨ Saturated linear.pages (base + 32 * size) := by
  by_cases enough : (base + 32 * size) % 2 ^ 32 ≤ pageSize * linear.pages % 2 ^ 32
  · -- It is granted at once, so the memory has to be there.
    have reading := @expandMemoryUntil_enough refusing base size linear small enough
    have reached := (provides refusing).granted (by rw [reading])
    rw [reading] at reached
    simp only [Unwrapped, Saturated, pageSize, maxPages, unitLimit] at *
    omega
  · have asks := fun host => @expandMemoryUntil_asks host base size linear small _ (by omega) rfl
    have eagerly := (provides eager).granted
    have refused := (provides refusing).enough
    rw [asks] at eagerly refused
    generalize asked : ((base + 32 * size) % 2 ^ 32 - pageSize * linear.pages % 2 ^ 32 +
      (pageSize - 1)) / pageSize % maxPages = delta at eagerly refused
    have short : pageSize * linear.pages < base + 32 * size := by
      by_contra there
      cases refused (by omega)
    by_cases room : linear.pages + delta ≤ maxPages
    · have grows : eager.memoryGrow linear.pages delta = (linear.pages, linear.pages + delta) :=
        if_pos room
      rw [grows] at eagerly
      have reached := eagerly (by
        simp only [maxPages, usizeMax, bne_iff_ne] at *
        omega)
      simp only [Unwrapped, Saturated, pageSize, maxPages, unitLimit] at *
      omega
    · simp only [Unwrapped, Saturated, pageSize, maxPages, unitLimit] at *
      omega

/-- A request on any host does what it has to exactly when nothing wraps, or all of it does. -/
theorem provides_iff {bytes total heapBase : Nat}
    (units : Size.fromBytesUsize .wasm32 bytes = some total) (within : size ≤ total)
    (address : base < 2 ^ 32) (present : linear.pages ≤ maxPages) :
    (∀ host, Provides host (base + 32 * size) linear
      ((system host heapBase bytes).expandMemoryUntil linear base size)) ↔
    Unwrapped linear.pages (base + 32 * size) ∨ Saturated linear.pages (base + 32 * size) := by
  have small : size < unitLimit := within.trans_lt (total_small units)
  constructor
  · exact provides_only small address present
  · rintro (unwrapped | saturated) host
    · exact unwrapped.provides small
    · exact saturated.provides small

/-- The second page for a heap that begins behind the first one. -/
theorem provides_sample : (∀ host, Provides host (65536 + 32 * 1024) ⟨1, []⟩
      ((system host 65536 1048576).expandMemoryUntil ⟨1, []⟩ 65536 1024)) ↔
    Unwrapped 1 (65536 + 32 * 1024) ∨ Saturated 1 (65536 + 32 * 1024) := by
  have units : Size.fromBytesUsize .wasm32 1048576 = some 32768 := by decide
  exact @provides_iff 65536 1024 ⟨1, []⟩ 1048576 32768 65536 units (by decide) (by decide) (by decide)

/-- A heap of four GiB above the first MiB: its end wraps, and is taken for memory that is there. -/
theorem provides_wraps : Size.fromBytesUsize .wasm32 4294967264 = some 134217727 ∧ ∀ host,
    (system host 1048576 4294967264).expandMemoryUntil ⟨17, []⟩ 1048576 134217727 =
        (true, ⟨17, []⟩) ∧
      ¬ Provides host (1048576 + 32 * 134217727) ⟨17, []⟩
        ((system host 1048576 4294967264).expandMemoryUntil ⟨17, []⟩ 1048576 134217727) := by
  refine ⟨by decide, fun host => ?_⟩
  have at_once : (system host 1048576 4294967264).expandMemoryUntil ⟨17, []⟩ 1048576 134217727 =
    (true, ⟨17, []⟩) :=
    @expandMemoryUntil_enough host 1048576 134217727 ⟨17, []⟩ (by decide) (by decide)
  refine ⟨at_once, fun provides => ?_⟩
  have reached := provides.granted (by rw [at_once])
  rw [at_once] at reached
  exact absurd reached (by decide)

end Requests

end Picoalloc.Wasm
