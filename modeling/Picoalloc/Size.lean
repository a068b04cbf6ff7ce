import Picoalloc.Foundation.CheckedMachine

/-!
Builds of the crate, sizes in 32-byte units, raw addresses and chunk sizes.
`Size` (in units), `SizeT`, `ChunkSize`, `Pointer`, `Address` and `usize` values are
naturals; every operation that can leave its type says what the build does then.
-/

namespace Picoalloc
open CheckedMachine

/-- The combinations of `Address`, `Mask` and `usize` that the `cfg` attributes
select. `riscv32` is as `x86`; the other 64-bit targets are as `x86_64`. -/
inductive Target where
  | x86 | wasm32 | polkavm | x86_64
  deriving DecidableEq, Repr

namespace Target

def addressBytes : Target → Nat
  | .x86 | .wasm32 | .polkavm => 4
  | .x86_64 => 8

def addressBits (target : Target) : Nat := target.addressBytes * 8

def maskBits : Target → Nat
  | .x86 => 32
  | .wasm32 | .polkavm | .x86_64 => 64

def usizeBits : Target → Nat
  | .x86 | .wasm32 => 32
  | .polkavm | .x86_64 => 64

end Target

/-- `paranoid` is `any(test, feature = "paranoid")`. -/
structure Build where
  target : Target
  reallocInplace : Bool
  paranoid : Bool
  overflowChecks : Bool
  deriving DecidableEq, Repr

def sizeBits : Nat := 32
def allocationGranularity : Nat := 32
def allocationSizeShift : Nat := 5

namespace Size

def fromBytesUsize (target : Target) (bytes : Nat) : Option Nat :=
  if bytes + (allocationGranularity - 1) < 2 ^ target.usizeBits then
    let size := (bytes + (allocationGranularity - 1)) >>> allocationSizeShift
    if size > 2 ^ sizeBits - 1 then none else some size
  else none

def bytes (size : Nat) : Nat := (size <<< allocationSizeShift) % 2 ^ sizeBits

def checkedAdd (size rhs : Nat) : Option Nat :=
  if size + rhs < 2 ^ sizeBits then some (size + rhs) else none

def uncheckedAdd (build : Build) (size rhs : Nat) : Checked Nat :=
  add build.overflowChecks sizeBits size rhs

def uncheckedSub (build : Build) (size rhs : Nat) : Checked Nat :=
  sub build.overflowChecks sizeBits size rhs

def isEmpty (size : Nat) : Bool := size == 0

def fromPointerAndBaseUnchecked (build : Build) (pointer base : Nat) : Checked Nat := do
  let distance ← sub build.overflowChecks build.target.addressBits pointer base
  return (distance >>> allocationSizeShift) % 2 ^ sizeBits

end Size

def maxAllocationSize : Nat := 1024 * 1024 * 1024 / allocationGranularity
def maxBins : Nat := 4096
def headerSize : Nat := 1
def freeChunkHeaderSize : Nat := 1

def alignOffset (build : Build) (x a : Nat) (b : Nat) : Checked Nat := do
  let mask ← sub build.overflowChecks sizeBits a 1
  let b := b >>> allocationSizeShift
  let sum ← add build.overflowChecks build.target.usizeBits b x
  let sum ← add build.overflowChecks build.target.usizeBits sum mask
  let offset ← sub build.overflowChecks build.target.usizeBits
    (sum &&& (2 ^ build.target.usizeBits - 1 - mask)) b
  return offset % 2 ^ sizeBits

namespace Pointer

def null : Nat := 0

def isNull (pointer : Nat) : Bool := pointer == 0

def uncheckedAdd (target : Target) (pointer : Nat) (offset : Nat) : Nat :=
  (pointer + Size.bytes offset) % 2 ^ target.addressBits

def uncheckedSub (target : Target) (pointer : Nat) (offset : Nat) : Nat :=
  (2 ^ target.addressBits + pointer - Size.bytes offset) % 2 ^ target.addressBits

end Pointer

namespace ChunkSize

def newAllocated (size : Nat) : Nat := ((size <<< 1) % 2 ^ sizeBits) ||| 1

def newUnallocated (size : Nat) : Nat := (size <<< 1) % 2 ^ sizeBits

def size (chunkSize : Nat) : Nat := chunkSize >>> 1

def isAllocated (chunkSize : Nat) : Bool := (chunkSize &&& 1) == 1

end ChunkSize

/-- `size_of::<ChunkHeader>()` and `size_of::<FreeChunkHeader>()`. -/
def chunkHeaderBytes : Nat := 8
def freeChunkHeaderBytes (target : Target) : Nat := 8 + 2 * target.addressBytes

section Arithmetic

variable {build : Build} {target : Target} {size rhs : Nat}

/-- The units below which `Size::bytes` does not lose bits. -/
def unitLimit : Nat := 2 ^ 27

theorem addressBits_ge (target : Target) : 32 ≤ target.addressBits := by
  cases target <;> decide

theorem usizeBits_ge (target : Target) : target.addressBits ≤ target.usizeBits := by
  cases target <;> decide

theorem freeChunkHeader_fits (target : Target) : freeChunkHeaderBytes target ≤ 32 := by
  cases target <;> decide

theorem bytes_eq (small : size < unitLimit) : Size.bytes size = 32 * size := by
  simp only [Size.bytes, allocationSizeShift, sizeBits, unitLimit, Nat.shiftLeft_eq] at *
  omega

theorem bytes_lt (size : Nat) : Size.bytes size < 2 ^ 32 := Nat.mod_lt _ (by decide)

theorem checkedAdd_eq_some {sum : Nat} :
    Size.checkedAdd size rhs = some sum ↔ size + rhs < 2 ^ 32 ∧ sum = size + rhs := by
  rw [Size.checkedAdd, sizeBits]
  split <;> simp_all [eq_comm]

theorem uncheckedAdd_ok (fits : size + rhs < 2 ^ 32) :
    Size.uncheckedAdd build size rhs = .ok (size + rhs) := add_ok fits

theorem uncheckedSub_ok (fits : rhs ≤ size) :
    Size.uncheckedSub build size rhs = .ok (size - rhs) := sub_ok fits

theorem pointer_add {pointer : Nat} {offset : Nat} (small : offset < unitLimit)
    (inside : pointer + 32 * offset < 2 ^ target.addressBits) :
    Pointer.uncheckedAdd target pointer offset = pointer + 32 * offset := by
  rw [Pointer.uncheckedAdd, bytes_eq small, Nat.mod_eq_of_lt inside]

theorem pointer_sub {pointer : Nat} {offset : Nat} (small : offset < unitLimit)
    (inside : pointer < 2 ^ target.addressBits) (above : 32 * offset ≤ pointer) :
    Pointer.uncheckedSub target pointer offset = pointer - 32 * offset := by
  rw [Pointer.uncheckedSub, bytes_eq small, Nat.add_sub_assoc above, Nat.add_mod_left,
    Nat.mod_eq_of_lt (Nat.lt_of_le_of_lt (Nat.sub_le _ _) inside)]

theorem fromPointerAndBase_ok {base : Nat} {offset : Nat} (small : offset < 2 ^ 32) :
    Size.fromPointerAndBaseUnchecked build (base + 32 * offset) base = .ok offset := by
  simp only [Size.fromPointerAndBaseUnchecked]
  rw [sub_ok (by omega)]
  simp only [allocationSizeShift, sizeBits, Nat.shiftRight_eq_div_pow, bind, Except.bind, pure,
    Except.pure, Except.ok.injEq]
  omega

theorem newUnallocated_eq (small : size < 2 ^ 31) : ChunkSize.newUnallocated size = 2 * size := by
  simp only [ChunkSize.newUnallocated, sizeBits, Nat.shiftLeft_eq]
  omega

theorem newAllocated_eq (small : size < 2 ^ 31) :
    ChunkSize.newAllocated size = 2 * size + 1 := by
  have even : (size <<< 1) % 2 ^ sizeBits = 2 ^ 1 * size := by
    simp only [sizeBits, Nat.shiftLeft_eq]
    omega
  rw [ChunkSize.newAllocated, even, ← Nat.two_pow_add_eq_or_of_lt (by decide)]

@[simp] theorem size_free (size : Nat) : ChunkSize.size (2 * size) = size := by
  simp [ChunkSize.size, Nat.shiftRight_eq_div_pow]

@[simp] theorem size_allocated (size : Nat) : ChunkSize.size (2 * size + 1) = size := by
  simp only [ChunkSize.size, Nat.shiftRight_eq_div_pow]
  omega

@[simp] theorem isAllocated_free (size : Nat) : ChunkSize.isAllocated (2 * size) = false := by
  simp [ChunkSize.isAllocated]

@[simp] theorem isAllocated_allocated (size : Nat) :
    ChunkSize.isAllocated (2 * size + 1) = true := by
  simp only [ChunkSize.isAllocated, Nat.and_one_is_mod, beq_iff_eq]
  omega

end Arithmetic

section Conversions

variable {build : Build} {size bytes : Nat}

/-- The conversions between a number of bytes, its size, pointers and chunk sizes lose
nothing, wherever the space of that size lies. -/
structure Lossless (build : Build) (bytes size : Nat) : Prop where
  bytes : IsLeast {multiple | 32 ∣ multiple ∧ bytes ≤ multiple} (Size.bytes size)
  pointer : ∀ base, base % 32 = 0 → base + 32 * size < 2 ^ build.target.addressBits →
    Pointer.uncheckedAdd build.target base size = base + 32 * size ∧
    Pointer.uncheckedSub build.target (Pointer.uncheckedAdd build.target base size) size = base ∧
    Size.fromPointerAndBaseUnchecked build (Pointer.uncheckedAdd build.target base size) base =
      .ok size
  order : ∀ base, base % 32 = 0 → base + 32 * size < 2 ^ build.target.addressBits →
    ∀ lower ≤ size, ∀ upper ≤ size, (Pointer.uncheckedAdd build.target base lower <
      Pointer.uncheckedAdd build.target base upper ↔ lower < upper)
  chunk : (ChunkSize.size (ChunkSize.newAllocated size) = size ∧
      ChunkSize.isAllocated (ChunkSize.newAllocated size) = true) ∧
    ChunkSize.size (ChunkSize.newUnallocated size) = size ∧
      ChunkSize.isAllocated (ChunkSize.newUnallocated size) = false

theorem fromBytesUsize_eq {target : Target} (admitted : Size.fromBytesUsize target bytes = some size) :
    bytes ≤ 32 * size ∧ 32 * size < bytes + 32 ∧ size < 2 ^ sizeBits := by
  simp only [Size.fromBytesUsize, allocationGranularity, allocationSizeShift, sizeBits,
    Nat.shiftRight_eq_div_pow] at *
  split at admitted
  · split at admitted
    · cases admitted
    · cases admitted
      omega
  · cases admitted

theorem lossless_of_small (cover : bytes ≤ 32 * size) (tight : 32 * size < bytes + 32)
    (small : size < unitLimit) : Lossless build bytes size := by
  have fits : size < 2 ^ 31 := small.trans (by decide)
  have placed : ∀ base lower, lower ≤ size → base + 32 * size < 2 ^ build.target.addressBits →
      Pointer.uncheckedAdd build.target base lower = base + 32 * lower := fun base lower below inside =>
    pointer_add (below.trans_lt small) (by omega)
  refine ⟨?_, fun base _ inside => ?_, fun base _ inside lower below upper below' => ?_, ?_⟩
  · rw [bytes_eq small]
    refine ⟨⟨Nat.dvd_mul_right _ _, cover⟩, ?_⟩
    rintro _ ⟨⟨units, rfl⟩, enough⟩
    omega
  · rw [placed base size (Nat.le_refl _) inside]
    refine ⟨rfl, ?_, fromPointerAndBase_ok (small.trans (by decide))⟩
    rw [pointer_sub small inside (by omega)]
    omega
  · rw [placed base lower below inside, placed base upper below' inside]
    omega
  · rw [newAllocated_eq fits, newUnallocated_eq fits]
    simp

/-- The conversions of an admitted size are lossless exactly when its bytes fit in 32 bits. -/
theorem lossless_iff (admitted : Size.fromBytesUsize build.target bytes = some size) :
    Lossless build bytes size ↔ bytes ≤ 2 ^ 32 - 32 := by
  obtain ⟨cover, tight, -⟩ := fromBytesUsize_eq admitted
  constructor
  · intro lossless
    -- `Size::bytes` never reaches 2^32, which is what the bytes would need.
    have value := lossless.bytes.1.2
    have multiple := lossless.bytes.1.1
    have bound := bytes_lt size
    omega
  · intro few
    exact lossless_of_small cover tight (by simp only [unitLimit]; omega)

theorem lossless_thousand : Lossless ⟨.x86_64, true, true, true⟩ 1000 32 :=
  (lossless_iff (by decide)).mpr (by decide)

/-- Four GiB are admitted, and take no bytes. -/
theorem lossless_fails_fourGiB : Size.fromBytesUsize .x86_64 (2 ^ 32) = some (2 ^ 27) ∧
    Size.bytes (2 ^ 27) = 0 ∧ ¬ Lossless ⟨.x86_64, true, true, true⟩ (2 ^ 32) (2 ^ 27) := by
  refine ⟨by decide, by decide, fun lossless => ?_⟩
  have value : 2 ^ 32 ≤ Size.bytes (2 ^ 27) := lossless.bytes.1.2
  exact absurd value (by decide)

end Conversions

end Picoalloc
