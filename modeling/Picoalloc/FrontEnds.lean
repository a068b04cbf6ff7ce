import Picoalloc.Atomicity
import Picoalloc.Reallocation

/-!
The front ends that take bytes: `GlobalAlloc` for the locked allocator, and the libc
functions over the global one, which report through `errno`. Each of them rejects a
request by itself or passes one call on to the allocator.
-/

namespace Picoalloc
open CheckedMachine ByteMemory

structure Layout (target : Target) where
  size : Nat
  align : Nat
  power : isPowerOfTwo align = true
  fits : size + align ≤ 2 ^ (target.usizeBits - 1)

def nonNull (pointer : Nat) : Option Nat :=
  if Pointer.isNull pointer then none else some pointer

def asPtr (result : Option Nat) : Nat := result.getD Pointer.null

namespace GlobalAlloc

variable (build : Build) {σ : Type} (E : Env σ)

/-- The conversions that `alloc` and `alloc_zeroed` share. -/
def allocateLayout (allocate : Nat → Nat → Run build σ (Option Nat)) (layout : Layout build.target) :
    Run build σ Nat :=
  match Size.fromBytesUsize build.target layout.align with
  | none => return Pointer.null
  | some align =>
      match Size.fromBytesUsize build.target layout.size with
      | none => return Pointer.null
      | some size => return asPtr (← allocate align size)

def alloc (layout : Layout build.target) : Run build σ Nat :=
  allocateLayout build (Picoalloc.alloc build E) layout

def allocZeroed (layout : Layout build.target) : Run build σ Nat :=
  allocateLayout build (Picoalloc.allocZeroed build E) layout

def realloc (pointer : Nat) (layout : Layout build.target) (newSize : Nat) : Run build σ Nat :=
  match nonNull pointer with
  | none => return Pointer.null
  | some pointer =>
      match Size.fromBytesUsize build.target layout.align with
      | none => return Pointer.null
      | some align =>
          -- of `layout` only the alignment is read, not the old size
          match Size.fromBytesUsize build.target newSize with
          | none => return Pointer.null
          | some newSize => return asPtr (← Picoalloc.realloc build E pointer align newSize)

def dealloc (pointer : Nat) (_layout : Layout build.target) : Run build σ Unit :=
  match nonNull pointer with
  | none => return ()
  | some pointer => Picoalloc.free build E pointer

end GlobalAlloc

namespace Libc

def ENOMEM : Nat := 12
def EINVAL : Nat := 22

def pointerBytes (target : Target) : Nat := target.usizeBits / 8

/-- `GLOBAL_ALLOCATOR` and the `errno` of the calling thread. -/
structure Process (build : Build) (σ : Type) where
  globalAllocator : AllocatorState build σ
  errno : Nat

abbrev LibcRun (build : Build) (σ α : Type) := Exec (Process build σ) α

variable (build : Build) {σ : Type} (E : Env σ)

def setErrno (value : Nat) : LibcRun build σ Unit :=
  modify fun process => { process with errno := value }

def locked {α : Type} (call : Run build σ α) : LibcRun build σ α := fun process => do
  let (result, allocator) ← call process.globalAllocator
  return (result, { process with globalAllocator := allocator })

def outOfMemory : LibcRun build σ Nat := do
  setErrno build ENOMEM
  return Pointer.null

def checkedMul (target : Target) (x y : Nat) : Option Nat :=
  if x * y < 2 ^ target.usizeBits then some (x * y) else none

def unwrapped (target : Target) (bytes : Nat)
    (admitted : (Size.fromBytesUsize target bytes).isSome = true) : Nat :=
  (Size.fromBytesUsize target bytes).get admitted

def callocAlign (target : Target) : Nat := unwrapped target 16 (by cases target <;> decide)

def reallocAlign (target : Target) : Nat := unwrapped target 1 (by cases target <;> decide)

def calloc (count size : Nat) : LibcRun build σ Nat :=
  match checkedMul build.target count size with
  | none => outOfMemory build
  | some totalSize =>
      match Size.fromBytesUsize build.target totalSize with
      | none => outOfMemory build
      | some totalSize => do
          match ← locked build (allocZeroed build E (callocAlign build.target) totalSize) with
          | some pointer => return pointer
          | none => outOfMemory build

/-- Returns the code and what `*result` is afterwards. -/
def posixMemalign (result align size : Nat) : LibcRun build σ (Nat × Nat) :=
  -- `*result` is written only where the code is zero
  if !(isPowerOfTwo align) ∨ align < pointerBytes build.target then
    return (EINVAL, result)
  else
    match Size.fromBytesUsize build.target size with
    | none => return (ENOMEM, result)
    | some size =>
        match Size.fromBytesUsize build.target align with
        | none => return (ENOMEM, result)
        | some align => do
            match ← locked build (alloc build E align size) with
            | some pointer => return (0, pointer)
            | none => return (ENOMEM, result)

def alignedAlloc (align size : Nat) : LibcRun build σ Nat := do
  let (errno, result) ← posixMemalign build E Pointer.null align size
  if errno ≠ 0 then
    setErrno build errno
  return result

def memalign (align size : Nat) : LibcRun build σ Nat := alignedAlloc build E align size

def malloc (size : Nat) : LibcRun build σ Nat :=
  alignedAlloc build E (pointerBytes build.target) size

def free (pointer : Nat) : LibcRun build σ Unit :=
  match nonNull pointer with
  | none => return ()
  | some pointer => locked build (Picoalloc.free build E pointer)

def realloc (pointer size : Nat) : LibcRun build σ Nat :=
  match nonNull pointer with
  | none => malloc build E size
  | some pointer =>
      -- not an error: `errno` stays as it is
      if size = 0 then do
        free build E pointer
        return Pointer.null
      else
        match Size.fromBytesUsize build.target size with
        | none => outOfMemory build
        | some size => do
            match ← locked build
                (Picoalloc.realloc build E pointer (reallocAlign build.target) size) with
            | some pointer => return pointer
            | none => outOfMemory build

def reallocarray (pointer count size : Nat) : LibcRun build σ Nat :=
  match checkedMul build.target count size with
  | none => outOfMemory build
  | some totalSize => realloc build E pointer totalSize

def mallocUsableSize (pointer : Nat) : Run build σ Nat :=
  match nonNull pointer with
  | none => return 0
  -- the header is read without the lock
  | some pointer => usableSize build pointer

end Libc

end Picoalloc
