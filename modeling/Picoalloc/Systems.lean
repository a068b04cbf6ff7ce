import Picoalloc.Environments
import Picoalloc.Wasm

/-!
The environments `System<SIZE>` of the targets, over the hosts behind them, which are
parameters: what a system call returns is up to the host, within what its documentation
says. Each environment keeps its side, so that sessions use what the host has given only.
-/

namespace Picoalloc
open CheckedMachine ByteMemory

def systemSpace (target : Target) (size : Nat) : Nat := (Size.fromBytesUsize target size).getD 0

section Mappings

/-- The bytes that a process may access, and whether it has been aborted. -/
structure World where
  mapped : Nat → Bool
  aborted : Bool

namespace World

def within (base length a : Nat) : Bool := decide (base ≤ a) && decide (a < base + length)

def map (base length : Nat) (world : World) : World :=
  { world with mapped := fun a => world.mapped a || within base length a }

def unmap (base length : Nat) (world : World) : World :=
  { world with mapped := fun a => world.mapped a && !within base length a }

def Usable (world : World) (a : Nat) : Prop := world.aborted = true ∨ world.mapped a = true

def Idle (others : Nat → Bool) (world : World) : Prop :=
  world.aborted = true ∨ world.mapped = others

def Reserved (others : Nat → Bool) (length : Nat) (world : World) (base : Nat) : Prop :=
  world.aborted = true ∨ (∀ a, within base length a = true → others a = false) ∧
    world.mapped = fun a => others a || within base length a

variable {others : Nat → Bool} {length base : Nat} {world : World}

theorem Idle.map (idle : world.Idle others)
    (fresh : ∀ a, within base length a = true → world.mapped a = false) :
    (world.map base length).Reserved others length base := by
  rcases idle with aborted | rfl
  · exact Or.inl aborted
  · exact Or.inr ⟨fresh, rfl⟩

theorem Reserved.unmap (reserved : world.Reserved others length base) :
    (world.unmap base length).Idle others := by
  rcases reserved with aborted | ⟨apart, mapped⟩
  · exact Or.inl aborted
  · refine Or.inr (funext fun a => ?_)
    have elsewhere := apart a
    simp only [World.unmap, mapped]
    cases inside : within base length a
    · simp
    · simp [elsewhere inside]

theorem Reserved.covers {size : Nat} (reserved : world.Reserved others length base)
    (fits : 32 * size ≤ length) : Covers Usable world base size := by
  intro a above below
  rcases reserved with aborted | ⟨-, mapped⟩
  · exact Or.inl aborted
  · refine Or.inr ?_
    have inside : within base length a = true := by
      simp only [within, Bool.and_eq_true, decide_eq_true_eq]
      omega
    simp only [mapped, inside, Bool.or_true]

end World

end Mappings

section Sample

variable {build : Build} {σ : Type} {E : Env σ} {idle : σ → Prop} {memory : Memory}

theorem BackedReached.allocated {env : σ} (idles : idle env)
    (passes : check (fun result => (result.2.live 0).isSome)
      (step E (.alloc 1 2) (Session.start build env memory)) = true) :
    ∃ outcome session pointer, step E (.alloc 1 2) (Session.start build env memory) =
        .ok (outcome, session) ∧ session.live 0 = some pointer ∧
      BackedReached build E idle memory session := by
  obtain ⟨⟨outcome, session⟩, ran, alive⟩ := check_ok passes
  obtain ⟨pointer, live⟩ := Option.isSome_iff_exists.mp alive
  have permitted : Permitted (.alloc 1 2) (Session.start build env memory) := trivial
  exact ⟨outcome, session, pointer, ran, live, .step (.start ⟨env, idles, rfl⟩) permitted ran⟩

end Sample

variable {build : Build} {memory : Memory} {bytes total : Nat} {others : Nat → Bool}

theorem systemSpace_eq {target : Target} (units : Size.fromBytesUsize target bytes = some total) :
    systemSpace target bytes = total := by
  rw [systemSpace, units]
  rfl

namespace Linux

def asIsize (value : Nat) : Int := if value < 2 ^ 63 then value else value - 2 ^ 64

def fails (result : Nat) : Bool := decide (-4095 ≤ asIsize result) && decide (asIsize result < 0)

/-- `mmap` of private pages at any address, and `munmap`: what they return for the bytes that
are mapped. A mapping begins at a page and is nobody else's. -/
structure Kernel where
  mmap : (Nat → Bool) → Nat → Nat
  munmap : (Nat → Bool) → Nat → Nat → Nat
  lawful : ∀ mapped length, fails (mmap mapped length) = true ∨
    mmap mapped length ≠ Pointer.null ∧ mmap mapped length % 4096 = 0 ∧
      mmap mapped length + length < 2 ^ 47 ∧
      ∀ a, World.within (mmap mapped length) length a = true → mapped a = false

def system (kernel : Kernel) (size : Nat) : Env World where
  totalSpace _ := systemSpace .x86_64 size
  allocateAddressSpace world :=
    let length := Size.bytes (systemSpace .x86_64 size)
    let result := kernel.mmap world.mapped length
    -- `abort` does not return, so that the pointer does not matter
    if fails result then (Pointer.null, { world with aborted := true })
    else (result, world.map result length)
  -- the whole mapping can be used from the start
  expandMemoryUntil world _ _ := (true, world)
  freeAddressSpace world base :=
    let length := Size.bytes (systemSpace .x86_64 size)
    if fails (kernel.munmap world.mapped base length) then { world with aborted := true }
    else world.unmap base length

variable {kernel : Kernel}

theorem system_lawful (units : Size.fromBytesUsize .x86_64 bytes = some total) (positive : 0 < total)
    (small : total < unitLimit) : (system kernel bytes).Lawful .x86_64 total where
  constant _ := systemSpace_eq units
  positive := positive
  small := small
  base world := by
    simp only [system]
    split
    · exact Or.inl rfl
    · next mapped =>
      obtain ⟨-, aligned, inside, -⟩ := (kernel.lawful _ _).resolve_left mapped
      rw [systemSpace_eq units, bytes_eq small] at aligned inside ⊢
      refine Or.inr ⟨by omega, ?_⟩
      simp only [Target.addressBits, Target.addressBytes]
      omega

theorem system_backed (units : Size.fromBytesUsize .x86_64 bytes = some total)
    (small : total < unitLimit) (others : Nat → Bool) :
    (system kernel bytes).Backed total World.Usable (World.Reserved others (32 * total))
      (World.Idle others) where
  reserve world idle := by
    simp only [system, systemSpace_eq units, bytes_eq small]
    by_cases failed : fails (kernel.mmap world.mapped (32 * total)) = true
    · rw [if_pos failed, if_pos rfl]
      exact Or.inl rfl
    · obtain ⟨nonnull, -, -, fresh⟩ := (kernel.lawful _ _).resolve_left failed
      rw [if_neg failed, if_neg nonnull]
      exact idle.map fresh
  grow _ _ _ reserved := reserved
  keep _ _ _ _ _ usable := usable
  grant _ _ _ reserved within _ := reserved.covers (Nat.mul_le_mul_left 32 within)
  release world base reserved := by
    simp only [system, systemSpace_eq units, bytes_eq small]
    split
    · exact Or.inl rfl
    · exact reserved.unmap

end Linux

namespace Corevm

/-- The imported `alloc`, which returns zero or the address of bytes that are nobody else's.
The imported `free` always succeeds. -/
structure Host where
  alloc : (Nat → Bool) → Nat → Nat
  lawful : ∀ mapped length, alloc mapped length = Pointer.null ∨
    alloc mapped length % 32 = 0 ∧ alloc mapped length + length < 2 ^ 32 ∧
      ∀ a, World.within (alloc mapped length) length a = true → mapped a = false

def system (host : Host) (size : Nat) : Env World where
  totalSpace _ := systemSpace .polkavm size
  allocateAddressSpace world :=
    let length := Size.bytes (systemSpace .polkavm size)
    let address := host.alloc world.mapped length
    (address, if address = Pointer.null then world else world.map address length)
  expandMemoryUntil world _ _ := (true, world)
  freeAddressSpace world base := world.unmap base (Size.bytes (systemSpace .polkavm size))

variable {host : Host}

theorem system_lawful (units : Size.fromBytesUsize .polkavm bytes = some total) (positive : 0 < total)
    (small : total < unitLimit) : (system host bytes).Lawful .polkavm total where
  constant _ := systemSpace_eq units
  positive := positive
  small := small
  base world := by
    simp only [system, systemSpace_eq units, bytes_eq small]
    exact (host.lawful world.mapped (32 * total)).imp_right fun ⟨aligned, inside, _⟩ => ⟨aligned, inside⟩

theorem system_backed (units : Size.fromBytesUsize .polkavm bytes = some total)
    (small : total < unitLimit) (others : Nat → Bool) :
    (system host bytes).Backed total World.Usable (World.Reserved others (32 * total))
      (World.Idle others) where
  reserve world idle := by
    simp only [system, systemSpace_eq units, bytes_eq small]
    by_cases failed : host.alloc world.mapped (32 * total) = Pointer.null
    · rw [if_pos failed, if_pos failed]
      exact idle
    · obtain ⟨-, -, fresh⟩ := (host.lawful _ _).resolve_left failed
      rw [if_neg failed, if_neg failed]
      exact idle.map fresh
  grow _ _ _ reserved := reserved
  keep _ _ _ _ _ usable := usable
  grant _ _ _ reserved within _ := reserved.covers (Nat.mul_le_mul_left 32 within)
  release world base reserved := by
    simp only [system, systemSpace_eq units, bytes_eq small]
    exact reserved.unmap

end Corevm

namespace Polkavm

/-- The instruction `sbrk`: what it returns for the end of the heap and a number of bytes, and
where the heap ends then. Of no bytes it returns the end; of more it returns zero if there
are none. -/
structure Machine where
  sbrk : Nat → Nat → Nat × Nat
  here : ∀ brk, sbrk brk 0 = (brk, brk)
  lawful : ∀ brk size, brk < 2 ^ 32 → sbrk brk size = (0, brk) ∨
    (sbrk brk size).2 = brk + size ∧ brk + size < 2 ^ 32

/-- `usize::next_multiple_of`, of addresses that are far from the end. -/
def nextMultipleOf (x rhs : Nat) : Nat := (x + (rhs - 1)) / rhs * rhs

/-- `usize` subtraction in a release build. -/
def usizeSub (x y : Nat) : Nat := (2 ^ 64 + x - y) % 2 ^ 64

def allocateAddressSpace (machine : Machine) (heapBase brk : Nat) : Nat × Nat :=
  let alignedPointer := nextMultipleOf heapBase 32
  let (sbrkPointer, brk) := machine.sbrk brk 0
  if sbrkPointer < alignedPointer then
    let (pointer, brk) := machine.sbrk brk (usizeSub alignedPointer sbrkPointer)
    if pointer = 0 then (Pointer.null, brk) else (alignedPointer, brk)
  else (alignedPointer, brk)

def expandMemoryUntil (machine : Machine) (base size brk : Nat) : Bool × Nat :=
  let (sbrkPointer, brk) := machine.sbrk brk 0
  let bytes := usizeSub sbrkPointer base
  if bytes ≥ Size.bytes size then (true, brk)
  else
    let (pointer, brk) := machine.sbrk brk (usizeSub (Size.bytes size) bytes)
    (pointer != 0, brk)

def system (machine : Machine) (heapBase size : Nat) : Env Nat where
  totalSpace _ := systemSpace .polkavm size
  allocateAddressSpace brk := allocateAddressSpace machine heapBase brk
  expandMemoryUntil brk base size := expandMemoryUntil machine base size brk
  freeAddressSpace brk _ := brk

def Usable (heapBase brk a : Nat) : Prop := heapBase ≤ a ∧ a < brk

def Idle (brk : Nat) : Prop := brk < 2 ^ 32

def Reserved (heapBase brk base : Nat) : Prop := heapBase ≤ base ∧ base ≤ brk ∧ brk < 2 ^ 32

variable {machine : Machine} {heapBase brk base size : Nat}

theorem allocateAddressSpace_base :
    (allocateAddressSpace machine heapBase brk).1 = Pointer.null ∨
      (allocateAddressSpace machine heapBase brk).1 = nextMultipleOf heapBase 32 := by
  simp only [allocateAddressSpace]
  split
  · split
    · exact Or.inl rfl
    · exact Or.inr rfl
  · exact Or.inr rfl

theorem system_lawful (units : Size.fromBytesUsize .polkavm bytes = some total) (positive : 0 < total)
    (small : total < unitLimit) (inside : nextMultipleOf heapBase 32 + 32 * total < 2 ^ 32) :
    (system machine heapBase bytes).Lawful .polkavm total where
  constant _ := systemSpace_eq units
  positive := positive
  small := small
  base brk := by
    refine allocateAddressSpace_base.imp_right fun same => ?_
    simp only [system, same]
    exact ⟨Nat.mul_mod_left _ _, inside⟩

theorem sbrk_grows (machine : Machine) (low : brk < 2 ^ 32) (size : Nat) :
    brk ≤ (machine.sbrk brk size).2 ∧ (machine.sbrk brk size).2 < 2 ^ 32 := by
  rcases machine.lawful brk size low with same | ⟨grown, inside⟩
  · rw [same]
    exact ⟨Nat.le_refl _, low⟩
  · rw [grown]
    exact ⟨Nat.le_add_right _ _, inside⟩

theorem sbrk_grants (low : brk < 2 ^ 32) (granted : (machine.sbrk brk size).1 ≠ 0) :
    (machine.sbrk brk size).2 = brk + size := by
  rcases machine.lawful brk size low with same | ⟨grown, -⟩
  · rw [same] at granted
    exact absurd rfl granted
  · exact grown

theorem usizeSub_eq {x y : Nat} (above : y ≤ x) (small : x < 2 ^ 64) : usizeSub x y = x - y := by
  rw [usizeSub, Nat.add_sub_assoc above, Nat.add_mod_left, Nat.mod_eq_of_lt (by omega)]

theorem allocateAddressSpace_reserves (machine : Machine) (low : brk < 2 ^ 32)
    (inside : nextMultipleOf heapBase 32 < 2 ^ 32) :
    Idle (allocateAddressSpace machine heapBase brk).2 ∧
      ((allocateAddressSpace machine heapBase brk).1 ≠ Pointer.null →
        Reserved heapBase (allocateAddressSpace machine heapBase brk).2
          (allocateAddressSpace machine heapBase brk).1) := by
  have above : heapBase ≤ nextMultipleOf heapBase 32 := by
    simp only [nextMultipleOf]
    omega
  simp only [allocateAddressSpace, machine.here]
  by_cases short : brk < nextMultipleOf heapBase 32
  · rw [if_pos short, usizeSub_eq short.le (inside.trans (by decide))]
    obtain ⟨-, low'⟩ := sbrk_grows machine low (nextMultipleOf heapBase 32 - brk)
    by_cases failed : (machine.sbrk brk (nextMultipleOf heapBase 32 - brk)).1 = 0
    · rw [if_pos failed]
      exact ⟨low', absurd rfl⟩
    · rw [if_neg failed]
      have grown : (machine.sbrk brk (nextMultipleOf heapBase 32 - brk)).2 =
          brk + (nextMultipleOf heapBase 32 - brk) := sbrk_grants low failed
      refine ⟨low', fun _ => ⟨above, ?_, low'⟩⟩
      rw [grown]
      omega
  · rw [if_neg short]
    exact ⟨low, fun _ => ⟨above, Nat.le_of_not_lt short, low⟩⟩

theorem expandMemoryUntil_grows (machine : Machine) (reserved : Reserved heapBase brk base)
    (size : Nat) :
    brk ≤ (expandMemoryUntil machine base size brk).2 ∧
      (expandMemoryUntil machine base size brk).2 < 2 ^ 32 ∧
      ((expandMemoryUntil machine base size brk).1 = true →
        base + Size.bytes size ≤ (expandMemoryUntil machine base size brk).2) := by
  obtain ⟨-, above, low⟩ := reserved
  simp only [expandMemoryUntil, machine.here, usizeSub_eq above (low.trans (by decide))]
  by_cases enough : brk - base ≥ Size.bytes size
  · rw [if_pos enough]
    exact ⟨Nat.le_refl _, low, fun _ => by omega⟩
  · have small := bytes_lt size
    rw [if_neg enough, usizeSub_eq (by omega) (small.trans (by decide))]
    obtain ⟨grows, low'⟩ := sbrk_grows machine low (Size.bytes size - (brk - base))
    refine ⟨grows, low', fun granted => ?_⟩
    have grown : (machine.sbrk brk (Size.bytes size - (brk - base))).2 =
        brk + (Size.bytes size - (brk - base)) := sbrk_grants low (by simpa using granted)
    rw [grown]
    omega

theorem system_backed (small : total < unitLimit) (inside : nextMultipleOf heapBase 32 < 2 ^ 32) :
    (system machine heapBase bytes).Backed total (Usable heapBase) (Reserved heapBase) Idle where
  reserve brk low := by
    obtain ⟨idle, reserved⟩ := allocateAddressSpace_reserves machine low inside
    split
    · exact idle
    · next nonnull => exact reserved nonnull
  grow brk base size reserved := by
    obtain ⟨grows, low, -⟩ := expandMemoryUntil_grows machine reserved size
    exact ⟨reserved.1, reserved.2.1.trans grows, low⟩
  keep brk base size a reserved usable :=
    ⟨usable.1, usable.2.trans_le (expandMemoryUntil_grows machine reserved size).1⟩
  grant brk base size reserved within granted := by
    intro a above below
    rw [← bytes_eq (within.trans_lt small)] at below
    exact ⟨reserved.1.trans above,
      below.trans_le ((expandMemoryUntil_grows machine reserved size).2.2 granted)⟩
  release brk base reserved := reserved.2.2

/-- On PolkaVM a session uses bytes between the base of the heap and its end only: the heap was
grown by `sbrk` up to whatever the session uses. -/
theorem polkavm_provides (here : build.target = .polkavm) (inplace : build.reallocInplace = true)
    (units : Size.fromBytesUsize .polkavm bytes = some total) (positive : 0 < total)
    (small : total < unitLimit) (inside : nextMultipleOf heapBase 32 + 32 * total < 2 ^ 32)
    {session : Session build Nat}
    (reached : BackedReached build (system machine heapBase bytes) Idle memory session) :
    Provided (system machine heapBase bytes) (Usable heapBase) Idle session :=
  reached.provided (here ▸ system_lawful units positive small inside) inplace
    (system_backed small (by omega))

def sampleMachine : Machine where
  sbrk brk size := if size = 0 then (brk, brk)
    else if brk + size < 2 ^ 21 then (brk + size, brk + size) else (0, brk)
  here brk := if_pos rfl
  lawful brk size low := by
    by_cases nothing : size = 0
    · rw [if_pos nothing, nothing]
      exact Or.inr ⟨rfl, low⟩
    · rw [if_neg nothing]
      split
      · exact Or.inr ⟨rfl, by omega⟩
      · exact Or.inl rfl

theorem polkavm_provides_sample : ∃ outcome session pointer,
    step (system sampleMachine 1000 256) (.alloc 1 2)
        (Session.start ⟨.polkavm, true, true, true⟩ 1000 fun _ => 0) = .ok (outcome, session) ∧
      session.live 0 = some pointer ∧
      Provided (system sampleMachine 1000 256) (Usable 1000) Idle session := by
  have idles : Idle 1000 := show 1000 < 2 ^ 32 by decide
  have passes : check (fun result => (result.2.live 0).isSome) (step (system sampleMachine 1000 256)
      (.alloc 1 2) (Session.start ⟨.polkavm, true, true, true⟩ 1000 fun _ => 0)) = true := by
    decide +kernel
  have units : Size.fromBytesUsize .polkavm 256 = some 8 := by decide
  obtain ⟨outcome, session, pointer, ran, live, reached⟩ := BackedReached.allocated idles passes
  exact ⟨outcome, session, pointer, ran, live,
    polkavm_provides rfl rfl units (by decide) (by decide) (by decide) reached⟩

end Polkavm

namespace Wasm

def Usable (heapBase : Nat) (linear : Linear) (a : Nat) : Prop :=
  heapBase ≤ a ∧ a < pageSize * linear.pages

def Idle (linear : Linear) : Prop := 0 < linear.pages ∧ linear.pages ≤ maxPages

def Reserved (heapBase : Nat) (linear : Linear) (base : Nat) : Prop :=
  base = nextMultipleOf heapBase 32 ∧ heapBase ≤ base ∧ Idle linear

variable {host : Host} {heapBase base size : Nat} {linear : Linear}

theorem heapBase_le (address : heapBase < 2 ^ 32) (nonnull : nextMultipleOf heapBase 32 ≠ Pointer.null) :
    heapBase ≤ nextMultipleOf heapBase 32 := by
  simp only [nextMultipleOf, Pointer.null] at *
  split at nonnull
  · next whole => rw [if_pos whole]
  · next rest =>
    rw [if_neg rest]
    omega

theorem memoryGrow_grows (host : Host) {pages : Nat} (within : pages ≤ maxPages) (delta : Nat) :
    pages ≤ (host.memoryGrow pages delta).2 ∧ (host.memoryGrow pages delta).2 ≤ maxPages := by
  rcases host.lawful pages delta with same | ⟨-, grown, inside⟩
  · rw [same]
    exact ⟨Nat.le_refl _, within⟩
  · rw [grown]
    exact ⟨Nat.le_add_right _ _, inside⟩

theorem expandMemoryUntil_grows (host : Host) (base size : Nat) (idle : Idle linear) :
    linear.pages ≤ (expandMemoryUntil host base size linear).2.pages ∧
      Idle (expandMemoryUntil host base size linear).2 := by
  obtain ⟨some_, within⟩ := idle
  simp only [expandMemoryUntil]
  split
  · exact ⟨Nat.le_refl _, some_, within⟩
  · obtain ⟨grows, within'⟩ := memoryGrow_grows host within
      (nextMultipleOf ((base + Size.bytes size) % 2 ^ 32 - linear.pages * pageSize % 2 ^ 32) pageSize /
        pageSize)
    exact ⟨grows, some_.trans_le grows, within'⟩

theorem expandMemoryUntil_covers (small : size < unitLimit) (idle : Idle linear)
    (inside : base + 32 * size < 2 ^ 32)
    (granted : (expandMemoryUntil host base size linear).1 = true) :
    base + 32 * size ≤ pageSize * (expandMemoryUntil host base size linear).2.pages := by
  obtain ⟨some_, within⟩ := idle
  rcases within.lt_or_eq with fewer | all
  · have unwrapped : Unwrapped linear.pages (base + 32 * size) := by
      refine ⟨fewer, inside, fun none => ?_⟩
      omega
    exact (unwrapped.provides small).granted granted
  · obtain ⟨grows, -⟩ := expandMemoryUntil_grows host base size ⟨some_, within⟩
    simp only [pageSize, maxPages] at *
    omega

theorem system_backed {total : Nat} (small : total < unitLimit) (address : heapBase < 2 ^ 32)
    (inside : nextMultipleOf heapBase 32 + 32 * total < 2 ^ 32) :
    (system host heapBase bytes).Backed total (Usable heapBase) (Reserved heapBase) Idle where
  reserve linear idle := by
    split
    · exact idle
    · next nonnull =>
      exact ⟨rfl, heapBase_le address nonnull, idle⟩
  grow linear base size reserved :=
    ⟨reserved.1, reserved.2.1, (expandMemoryUntil_grows host base size reserved.2.2).2⟩
  keep linear base size a reserved usable := by
    obtain ⟨grows, -⟩ := expandMemoryUntil_grows host base size reserved.2.2
    exact ⟨usable.1, usable.2.trans_le (Nat.mul_le_mul_left _ grows)⟩
  grant linear base size reserved within granted := by
    intro a above below
    have covered := expandMemoryUntil_covers (within.trans_lt small) reserved.2.2
      (by rw [reserved.1]; omega) granted
    exact ⟨reserved.2.1.trans above, below.trans_le covered⟩
  release linear base reserved := reserved.2.2

/-- On wasm32 a session uses bytes between the data of the program and the end of the linear
memory only: there are pages for whatever the session uses. -/
theorem wasm_provides (here : build.target = .wasm32) (inplace : build.reallocInplace = true)
    {total : Nat} (units : Size.fromBytesUsize .wasm32 bytes = some total) (positive : 0 < total)
    (address : heapBase < 2 ^ 32) (inside : nextMultipleOf heapBase 32 + 32 * total < 2 ^ 32)
    {session : Session build Linear}
    (reached : BackedReached build (system host heapBase bytes) Idle memory session) :
    Provided (system host heapBase bytes) (Usable heapBase) Idle session :=
  reached.provided (here ▸ system_lawful units positive inside) inplace
    (system_backed (total_small units) address inside)

/-- The second allocation needs a second page. -/
theorem wasm_provides_sample : ∃ session₁ session outcome pointer,
    step (system eager 1000 262144) (.alloc 1 2)
        (Session.start ⟨.wasm32, true, true, true⟩ ⟨1, []⟩ fun _ => 0) = .ok (outcome, session₁) ∧
      session₁.allocator.env.pages = 1 ∧
      step (system eager 1000 262144) (.alloc 1 4000) session₁ =
        .ok (.pointer (some pointer), session) ∧
      session.allocator.env.pages = 2 ∧
      Provided (system eager 1000 262144) (Usable 1000) Idle session := by
  obtain ⟨⟨outcome, session₁⟩, first, passed⟩ := check_ok
    (show check (fun result => result.2.allocator.env.pages == 1 &&
        check (fun next => next.1 == .pointer (some 1152) && next.2.allocator.env.pages == 2)
          (step (system eager 1000 262144) (.alloc 1 4000) result.2))
      (step (system eager 1000 262144) (.alloc 1 2)
        (Session.start ⟨.wasm32, true, true, true⟩ ⟨1, []⟩ fun _ => 0)) = true by decide +kernel)
  simp only [Bool.and_eq_true, beq_iff_eq] at passed
  obtain ⟨one, passed⟩ := passed
  obtain ⟨⟨granted, session⟩, second, passed⟩ := check_ok passed
  simp only [Bool.and_eq_true, beq_iff_eq] at passed
  obtain ⟨rfl, two⟩ := passed
  have reached : BackedReached ⟨.wasm32, true, true, true⟩ (system eager 1000 262144) Idle (fun _ => 0)
      session :=
    .step (.step (.start ⟨⟨1, []⟩, ⟨by decide, by decide⟩, rfl⟩)
      (show Permitted (.alloc 1 2) _ from trivial) first) (show Permitted (.alloc 1 4000) _ from trivial)
      second
  have units : Size.fromBytesUsize .wasm32 262144 = some 8192 := by decide
  exact ⟨session₁, session, outcome, 1152, first, one, second, two,
    wasm_provides rfl rfl units (by decide) (by decide) (by decide) reached⟩

end Wasm

end Picoalloc
