import Picoalloc.BitMask
import Picoalloc.Foundation.ByteMemory

/-!
The allocator of `allocator.rs` as computations over its fields, the memory it
manages and the environment behind it. Headers, list links and payloads live in
one byte memory. An access faults when its pointer is null or when a byte of it
lies outside what `expand_memory_until` has granted; the paranoid checks are
compiled in when the build says so.
-/

namespace Picoalloc
open CheckedMachine ByteMemory

/-- The `Env` trait over an environment state. -/
structure Env (σ : Type) where
  totalSpace : σ → Nat
  allocateAddressSpace : σ → Nat × σ
  expandMemoryUntil : σ → Nat → Nat → Bool × σ
  freeAddressSpace : σ → Nat → σ

/-- The calls that reached the environment, with its answers. -/
inductive Event where
  | allocateAddressSpace (base : Nat)
  | expandMemoryUntil (base size : Nat) (isOk : Bool)
  | freeAddressSpace (base : Nat)
  deriving DecidableEq, Repr

/-- The largest size granted at `base`, read off the calls, newest first. -/
def granted (base : Nat) : List Event → Nat
  | [] => 0
  | .expandMemoryUntil place size true :: rest =>
      if place = base then max size (granted base rest) else granted base rest
  | .freeAddressSpace place :: rest => if place = base then 0 else granted base rest
  | _ :: rest => granted base rest

/-- The fields of `Allocator<E>`, then the world around it: the memory, the calls
made to the environment and the payload ranges written, both newest first. -/
structure State (width : Nat) (σ : Type) where
  allocatedSpace : Nat
  baseAddress : Nat
  freeListsWithUnallocatedMemory : BitMask width
  firstInFreeList : List Nat
  env : σ
  memory : Memory
  trace : List Event
  payloadWrites : List (Nat × Nat)

abbrev AllocatorState (build : Build) (σ : Type) := State build.target.maskBits σ

abbrev Run (build : Build) (σ α : Type) := Exec (AllocatorState build σ) α

def State.mapped {width : Nat} {σ : Type} (s : State width σ) (address length : Nat) : Bool :=
  s.baseAddress ≤ address &&
    address + length ≤ s.baseAddress + 32 * granted s.baseAddress s.trace

variable (build : Build) {σ : Type} (E : Env σ)

/-- `Allocator::new`, over a memory with arbitrary contents. -/
def Allocator.new (env : σ) (memory : Memory) : AllocatorState build σ :=
  { allocatedSpace := 0
    baseAddress := Pointer.null
    freeListsWithUnallocatedMemory := BitMask.new build.target.maskBits
      (Bins.secondaryLength build.target.maskBits (Bins.binConfig build.target).binCount)
    firstInFreeList := List.replicate (Bins.binConfig build.target).binCount Pointer.null
    env, memory, trace := [], payloadWrites := [] }

section Access

inductive Field where
  | prevChunkSize | size | nextInList | prevInList
  deriving DecidableEq, Repr

def Field.offset (target : Target) : Field → Nat
  | .prevChunkSize => 0
  | .size => 4
  | .nextInList => 8
  | .prevInList => 8 + target.addressBytes

def Field.length (target : Target) : Field → Nat
  | .prevChunkSize | .size => 4
  | .nextInList | .prevInList => target.addressBytes

def load (chunk : Nat) (field : Field) : Run build σ Nat := fun s =>
  let address := chunk + field.offset build.target
  let length := field.length build.target
  if Pointer.isNull chunk then .error .nullPointer
  else if s.mapped address length then .ok (readWord s.memory address length, s)
  else .error .unmapped

def store (chunk : Nat) (field : Field) (value : Nat) : Run build σ Unit := fun s =>
  let address := chunk + field.offset build.target
  let length := field.length build.target
  if Pointer.isNull chunk then .error .nullPointer
  else if s.mapped address length then
    .ok ((), { s with memory := writeWord s.memory address length value })
  else .error .unmapped

def writeChunkHeader (chunk prevChunkSize size : Nat) : Run build σ Unit := do
  store build chunk .prevChunkSize prevChunkSize
  store build chunk .size size

def writeFreeChunkHeader (chunk prevChunkSize size nextInList prevInList : Nat) :
    Run build σ Unit := do
  store build chunk .prevChunkSize prevChunkSize
  store build chunk .size size
  store build chunk .nextInList nextInList
  store build chunk .prevInList prevInList

def zeroPayload (address length : Nat) : Run build σ Unit := fun s =>
  if s.mapped address length then
    .ok ((), { s with memory := fill s.memory address length 0
                      payloadWrites := (address, length) :: s.payloadWrites })
  else .error .unmapped

def copyPayload (source destination length : Nat) : Run build σ Unit := fun s =>
  -- `copy_nonoverlapping` is undefined on ranges that overlap
  if source < destination + length ∧ destination < source + length then .error .overlap
  else if s.mapped source length && s.mapped destination length then
    .ok ((), { s with memory := copy s.memory source destination length
                      payloadWrites := (destination, length) :: s.payloadWrites })
  else .error .unmapped

def getFirstInFreeList (bin : Nat) : Run build σ Nat := do
  let s ← get
  getUnchecked s.firstInFreeList bin

def setFirstInFreeList (bin chunk : Nat) : Run build σ Unit := do
  let _ ← getFirstInFreeList build bin
  modify fun s => { s with firstInFreeList := s.firstInFreeList.set bin chunk }

def setBin (bin : BitIndex) : Run build σ Unit := do
  let s ← get
  let mask ← BitMask.set build.overflowChecks s.freeListsWithUnallocatedMemory bin
  set { s with freeListsWithUnallocatedMemory := mask }

def unsetBin (bin : BitIndex) : Run build σ Unit := do
  let s ← get
  let mask ← BitMask.unset build.overflowChecks s.freeListsWithUnallocatedMemory bin
  set { s with freeListsWithUnallocatedMemory := mask }

def findFirstBin (minIndex : BitIndex) : Run build σ (Option BitIndex) := do
  let s ← get
  BitMask.findFirst build.overflowChecks s.freeListsWithUnallocatedMemory minIndex

end Access

section Environment

def allocateAddressSpace : Run build σ Nat := do
  let s ← get
  let (base, env) := E.allocateAddressSpace s.env
  set { s with env, trace := .allocateAddressSpace base :: s.trace }
  return base

def expandMemoryUntil (base size : Nat) : Run build σ Bool := do
  let s ← get
  let (isOk, env) := E.expandMemoryUntil s.env base size
  set { s with env, trace := .expandMemoryUntil base size isOk :: s.trace }
  return isOk

def freeAddressSpace (base : Nat) : Run build σ Unit := do
  let s ← get
  set { s with env := E.freeAddressSpace s.env base, trace := .freeAddressSpace base :: s.trace }

def endOfAddressSpace : Run build σ Nat := do
  let s ← get
  return Pointer.uncheckedAdd build.target s.baseAddress (E.totalSpace s.env)

end Environment

section Paranoid

def assertTrue (condition : Bool) : Run build σ Unit :=
  if condition then pure () else throw .panic

def paranoidAssert (condition : Bool) : Run build σ Unit :=
  if build.paranoid then assertTrue build condition else pure ()

def paranoidCheckAccess (pointer bytes : Nat) : Run build σ Unit :=
  if build.paranoid then do
    assertTrue build !(Pointer.isNull pointer)
    let s ← get
    let width := 2 ^ build.target.addressBits
    let offset := (width + pointer - s.baseAddress) % width
    assertTrue build ((offset + bytes) % width ≤ Size.bytes s.allocatedSpace)
  else pure ()

def checkPrevChunk (chunk : Nat) (isAllocated : Bool) (baseAddress prevChunkSize : Nat) :
    Run build σ Unit :=
  if Size.isEmpty prevChunkSize then
    assertTrue build (chunk == baseAddress)
  else do
    let prevChunk := Pointer.uncheckedSub build.target chunk prevChunkSize
    assertTrue build (baseAddress ≤ prevChunk)
    let prevSize ← load build prevChunk .size
    assertTrue build (ChunkSize.size prevSize == prevChunkSize)
    assertTrue build (isAllocated || ChunkSize.isAllocated prevSize)

def checkNextChunk (chunk : Nat) (isAllocated : Bool) (endOfSpace size : Nat) :
    Run build σ Unit := do
  let nextChunk := Pointer.uncheckedAdd build.target chunk size
  if nextChunk < endOfSpace then
    let prevChunkSize ← load build nextChunk .prevChunkSize
    assertTrue build (prevChunkSize == size)
    let nextSize ← load build nextChunk .size
    assertTrue build (isAllocated || ChunkSize.isAllocated nextSize)
  else
    assertTrue build (nextChunk == endOfSpace)

def paranoidCheckChunk (chunk : Nat) : Run build σ Unit :=
  if build.paranoid then do
    assertTrue build !(Pointer.isNull chunk)
    let s ← get
    assertTrue build !(Pointer.isNull s.baseAddress)
    assertTrue build (s.baseAddress ≤ chunk)
    let endOfSpace ← endOfAddressSpace build E
    if chunk = endOfSpace then
      return ()
    else do
      assertTrue build (chunk < endOfSpace)
      assertTrue build ((chunk + chunkHeaderBytes) % 2 ^ build.target.addressBits ≤ endOfSpace)
      paranoidCheckAccess build chunk chunkHeaderBytes
      let chunkSize ← load build chunk .size
      let isAllocated := ChunkSize.isAllocated chunkSize
      let prevChunkSize ← load build chunk .prevChunkSize
      checkPrevChunk build chunk isAllocated s.baseAddress prevChunkSize
      checkNextChunk build chunk isAllocated endOfSpace (ChunkSize.size chunkSize)
  else pure ()

end Paranoid

section FreeLists

def sizeToBinRoundDown (size : Nat) : Run build σ BitIndex := do
  let bin ← Bins.toBinIndexGeneric build.overflowChecks
    (Bins.binConfig build.target).mantissaBits false (Bins.clampToMax size)
  return BitMask.index build.target.maskBits bin

def sizeToBinRoundUp (size : Nat) : Run build σ BitIndex := do
  let bin ← Bins.toBinIndexGeneric build.overflowChecks
    (Bins.binConfig build.target).mantissaBits true (Bins.clampToMax size)
  return BitMask.index build.target.maskBits bin

def checkFirstChunk (chunk : Nat) (bin : BitIndex) : Run build σ Unit :=
  -- the assertions at the head of `unregister_free_space_first_chunk`
  if build.paranoid then do
    let first ← getFirstInFreeList build bin.index
    assertTrue build (first == chunk)
    let size ← load build chunk .size
    assertTrue build !(ChunkSize.isAllocated size)
    let prevInList ← load build chunk .prevInList
    assertTrue build (Pointer.isNull prevInList)
  else pure ()

def linkBack (nextInList prevInList : Nat) : Run build σ Unit :=
  -- `if !next_in_list.is_null()`: the last chunk of a list has nobody to tell
  if Pointer.isNull nextInList then pure ()
  else store build nextInList .prevInList prevInList

def unregisterFreeSpaceFirstChunk (chunk : Nat) (bin : BitIndex) : Run build σ Unit := do
  paranoidCheckAccess build chunk (freeChunkHeaderBytes build.target)
  checkFirstChunk build chunk bin
  let nextInList ← load build chunk .nextInList
  paranoidAssert build (nextInList != chunk)
  setFirstInFreeList build bin.index nextInList
  if Pointer.isNull nextInList then
    unsetBin build bin
  else
    store build nextInList .prevInList Pointer.null

def unregisterFreeSpace (chunk : Nat) (bin : BitIndex) : Run build σ Unit := do
  paranoidCheckAccess build chunk (freeChunkHeaderBytes build.target)
  let first ← getFirstInFreeList build bin.index
  if first = chunk then
    unregisterFreeSpaceFirstChunk build chunk bin
  else do
    let size ← load build chunk .size
    paranoidAssert build !(ChunkSize.isAllocated size)
    let nextInList ← load build chunk .nextInList
    let prevInList ← load build chunk .prevInList
    paranoidAssert build (nextInList != chunk)
    paranoidAssert build (prevInList != chunk)
    paranoidAssert build !(Pointer.isNull prevInList)
    store build prevInList .nextInList nextInList
    linkBack build nextInList prevInList

def registerFreeSpace (chunk prevChunkSize size : Nat) : Run build σ Nat := do
  if Size.isEmpty size then
    return prevChunkSize
  else do
    paranoidCheckAccess build chunk (freeChunkHeaderBytes build.target)
    let bin ← sizeToBinRoundDown build size
    let nextInList ← getFirstInFreeList build bin.index
    setFirstInFreeList build bin.index chunk
    writeFreeChunkHeader build chunk prevChunkSize (ChunkSize.newUnallocated size) nextInList
      Pointer.null
    linkBack build nextInList chunk
    setBin build bin
    return size

def registerAllocation (chunk prevChunkSize size : Nat) : Run build σ Unit := do
  paranoidCheckAccess build chunk chunkHeaderBytes
  writeChunkHeader build chunk prevChunkSize (ChunkSize.newAllocated size)

/-- The block of `free` and `shrink_inplace` that takes over a following free
chunk: the result is `size` plus what was taken. -/
def mergeNextFree (nextChunk endOfSpace size : Nat) : Run build σ Nat := do
  if nextChunk < endOfSpace then
    paranoidCheckAccess build nextChunk chunkHeaderBytes
    let nextSize ← load build nextChunk .size
    if ChunkSize.isAllocated nextSize then
      return size
    else
      let bin ← sizeToBinRoundDown build (ChunkSize.size nextSize)
      unregisterFreeSpace build nextChunk bin
      Size.uncheckedAdd build size (ChunkSize.size nextSize)
  else
    return size

def storeFinalPrevSize (finalChunk endOfSpace bytes prevChunkSize : Nat) : Run build σ Unit := do
  -- every operation ends by telling the chunk after the changed ones its new predecessor
  if finalChunk < endOfSpace then
    paranoidCheckAccess build finalChunk bytes
    store build finalChunk .prevChunkSize prevChunkSize
  else
    return ()

end FreeLists

section Operations

/-- `initialize_impl` once the first unit is granted: one chunk takes the whole space. -/
def registerFirstChunk (baseAddress : Nat) : Run build σ Unit := do
  modify fun s => { s with baseAddress, allocatedSpace := freeChunkHeaderSize }
  paranoidCheckAccess build baseAddress (freeChunkHeaderBytes build.target)
  let s ← get
  let totalSpace := E.totalSpace s.env
  let bin ← sizeToBinRoundDown build totalSpace
  setBin build bin
  writeFreeChunkHeader build baseAddress 0 (ChunkSize.newUnallocated totalSpace) Pointer.null
    Pointer.null
  setFirstInFreeList build bin.index baseAddress
  paranoidCheckChunk build E baseAddress

def initializeImpl : Run build σ Bool := do
  let baseAddress ← allocateAddressSpace build E
  if Pointer.isNull baseAddress then
    return false
  else do
    paranoidAssert build (baseAddress % allocationGranularity == 0)
    paranoidAssert build (baseAddress % build.target.addressBytes == 0)
    let isOk ← expandMemoryUntil build E baseAddress freeChunkHeaderSize
    -- what was reserved is given back before any field is set
    if !isOk then
      freeAddressSpace build E baseAddress
      return false
    else do
      registerFirstChunk build E baseAddress
      return true

/-- `Allocator::initialize`; that word is a keyword here. -/
def initializeAllocator : Run build σ Bool := do
  let s ← get
  if Pointer.isNull s.baseAddress then
    initializeImpl build E
  else
    return true

def isPowerOfTwo (x : Nat) : Bool := x != 0 && 2 ^ Nat.log2 x == x

/-- The two searches of `alloc_impl`: from the rounded-up bin, then from the
rounded-down one in case it holds an oversized chunk. -/
def findBin (minSize : Nat) : Run build σ (Option BitIndex) := do
  let minSizeRoundUp ← sizeToBinRoundUp build minSize
  let minSizeRoundDown ← sizeToBinRoundDown build minSize
  let bin ← findFirstBin build minSizeRoundUp
  if bin.isNone then
    findFirstBin build minSizeRoundDown
  else
    return bin

def checkBinOfChunk (chunkSize : Nat) (bin : BitIndex) : Run build σ Unit :=
  if build.paranoid then do
    let roundDown ← sizeToBinRoundDown build chunkSize
    -- `==` on bins has paranoid assertions of its own
    let isEqual ← BitIndex.eq build.paranoid roundDown bin
    assertTrue build isEqual
  else pure ()

/-- The test against `allocated_space` of `alloc_impl` and `grow_inplace`: false
when the environment refuses to expand. -/
def expandTo (endOffset : Nat) : Run build σ Bool := do
  let s ← get
  if s.allocatedSpace < endOffset then
    let isOk ← expandMemoryUntil build E s.baseAddress endOffset
    if !isOk then
      return false
    else
      -- the mark moves to what was asked for, not to what the environment rounds it up to
      modify fun s => { s with allocatedSpace := endOffset }
      return true
  else
    return true

/-- The last step of `end_offset`: free space that is left needs its header. -/
def withFreeHeader (endOffset freeSpace : Nat) : Checked Nat :=
  if !(Size.isEmpty freeSpace) then Size.uncheckedAdd build endOffset freeChunkHeaderSize
  else .ok endOffset

/-- How `alloc_impl` cuts a free chunk: the free space left of the new chunk, its
data offset, the free space right of it and the offset it needs expanded. -/
structure Cut where
  dataOffset : Nat
  headerOffset : Nat
  freeSpaceLhs : Nat
  freeSpaceRhs : Nat
  endOffset : Nat
  deriving DecidableEq, Repr

def cutChunk (chunk chunkSize align requestedSize : Nat) : Run build σ Cut := do
  let s ← get
  let chunkOffset ← Size.fromPointerAndBaseUnchecked build chunk s.baseAddress
  let firstData ← add build.overflowChecks sizeBits chunkOffset headerSize
  let dataOffset ← alignOffset build firstData align s.baseAddress
  let headerOffset ← Size.uncheckedSub build dataOffset headerSize
  paranoidAssert build (headerOffset ≥ chunkOffset)
  let freeSpaceLhs ← Size.uncheckedSub build headerOffset chunkOffset
  let rest ← Size.uncheckedSub build chunkSize requestedSize
  let rest ← Size.uncheckedSub build rest freeSpaceLhs
  let freeSpaceRhs ← Size.uncheckedSub build rest headerSize
  let endOffset ← Size.uncheckedAdd build dataOffset requestedSize
  let endOffset ← withFreeHeader build endOffset freeSpaceRhs
  return { dataOffset, headerOffset, freeSpaceLhs, freeSpaceRhs, endOffset }

def carveChunk (chunk : Nat) (bin : BitIndex) (requestedSize : Nat) (cut : Cut) :
    Run build σ Nat := do
  let s ← get
  let allocationChunk := Pointer.uncheckedAdd build.target s.baseAddress cut.headerOffset
  let prevChunkSize ← load build chunk .prevChunkSize
  unregisterFreeSpaceFirstChunk build chunk bin
  let prevChunkSize ← registerFreeSpace build chunk prevChunkSize cut.freeSpaceLhs
  let size ← Size.uncheckedAdd build requestedSize headerSize
  registerAllocation build allocationChunk prevChunkSize size
  let nextChunk := Pointer.uncheckedAdd build.target
    (Pointer.uncheckedAdd build.target allocationChunk headerSize) requestedSize
  let prevChunkSize ← registerFreeSpace build nextChunk size cut.freeSpaceRhs
  let finalChunk := Pointer.uncheckedAdd build.target nextChunk cut.freeSpaceRhs
  let endOfSpace ← endOfAddressSpace build E
  storeFinalPrevSize build finalChunk endOfSpace (freeChunkHeaderBytes build.target) prevChunkSize
  paranoidCheckChunk build E allocationChunk
  paranoidCheckChunk build E
    (Pointer.uncheckedSub build.target allocationChunk cut.freeSpaceLhs)
  paranoidCheckChunk build E nextChunk
  return allocationChunk

def checkSizeOfChunk (chunk requestedSize : Nat) : Run build σ Unit :=
  if build.paranoid then do
    let size ← load build chunk .size
    let expected ← Size.uncheckedAdd build requestedSize headerSize
    assertTrue build (ChunkSize.size size == expected)
  else pure ()

/-- The end of `alloc_impl`: the last assertions and the zero fill. -/
def finishAlloc (allocationChunk align requestedSize : Nat) (zeroMemory : Bool) :
    Run build σ Nat := do
  checkSizeOfChunk build allocationChunk requestedSize
  let data := Pointer.uncheckedAdd build.target allocationChunk headerSize
  paranoidAssert build (data % Size.bytes align == 0)
  paranoidCheckChunk build E (Pointer.uncheckedSub build.target data headerSize)
  if zeroMemory then do
    zeroPayload build data (Size.bytes requestedSize)
    return data
  else
    return data

def commitAlloc (chunk : Nat) (bin : BitIndex) (align requestedSize : Nat) (cut : Cut)
    (zeroMemory : Bool) : Run build σ Nat := do
  let allocationChunk ← carveChunk build E chunk bin requestedSize cut
  finishAlloc build E allocationChunk align requestedSize zeroMemory

def allocFrom (bin : BitIndex) (minSize align requestedSize : Nat) (isCalloc : Bool) :
    Run build σ (Option Nat) := do
  let chunk ← getFirstInFreeList build bin.index
  paranoidCheckChunk build E chunk
  let chunkSize ← load build chunk .size
  paranoidAssert build !(ChunkSize.isAllocated chunkSize)
  let chunkSize := ChunkSize.size chunkSize
  checkBinOfChunk build chunkSize bin
  -- a chunk of the rounded-down bin may be too small
  if chunkSize < minSize then
    return none
  else do
    let cut ← cutChunk build chunk chunkSize align requestedSize
    let s ← get
    -- decided before `expand_memory_until` moves the mark
    let zeroMemory := decide (s.allocatedSpace > cut.dataOffset) && isCalloc
    let isOk ← expandTo build E cut.endOffset
    if !isOk then
      return none
    else do
      let data ← commitAlloc build E chunk bin align requestedSize cut zeroMemory
      return some data

/-- `min_size` of `alloc_impl`: the request, its header and the alignment slack. -/
def minSizeFor (align requestedSize : Nat) : Run build σ (Option Nat) := do
  match Size.checkedAdd requestedSize headerSize with
  | none => return none
  | some size => do
      -- `align` is a power of two by now, so this does not wrap
      let slack ← Size.uncheckedSub build align 1
      return Size.checkedAdd size slack

/-- `alloc_impl` once the allocator is initialized. -/
def allocInitialized (align requestedSize : Nat) (isCalloc : Bool) : Run build σ (Option Nat) := do
  let minSize ← minSizeFor build align requestedSize
  match minSize with
  | none => return none
  | some minSize =>
      if minSize > maxAllocationSize then
        return none
      else do
        let bin ← findBin build minSize
        match bin with
        | none => return none
        | some bin => allocFrom build E bin minSize align requestedSize isCalloc

def allocImpl (align requestedSize : Nat) (isCalloc : Bool) : Run build σ (Option Nat) := do
  if align = 0 ∨ !(isPowerOfTwo align) then
    return none
  else do
    let isOk ← initializeAllocator build E
    if !isOk then
      return none
    else
      allocInitialized build E align requestedSize isCalloc

def allocZeroed (align requestedSize : Nat) : Run build σ (Option Nat) :=
  allocImpl build E align requestedSize true

def alloc (align requestedSize : Nat) : Run build σ (Option Nat) :=
  allocImpl build E align requestedSize false

/-- The block of `free` that merges with a preceding free chunk: the resulting
chunk, the size before it and its size. -/
def mergePrevFree (chunk prevChunkSize size : Nat) : Run build σ (Nat × Nat × Nat) := do
  let s ← get
  let offset ← Size.fromPointerAndBaseUnchecked build chunk s.baseAddress
  if !(Size.isEmpty offset) then
    let prevChunk := Pointer.uncheckedSub build.target chunk prevChunkSize
    paranoidCheckAccess build prevChunk chunkHeaderBytes
    let prevSize ← load build prevChunk .size
    paranoidAssert build (ChunkSize.size prevSize == prevChunkSize)
    if ChunkSize.isAllocated prevSize then
      return (chunk, prevChunkSize, size)
    else do
      let prevChunkSize ← load build prevChunk .prevChunkSize
      let prevSize := ChunkSize.size prevSize
      let bin ← sizeToBinRoundDown build prevSize
      unregisterFreeSpace build prevChunk bin
      let size ← Size.uncheckedAdd build size prevSize
      return (Pointer.uncheckedSub build.target chunk prevSize, prevChunkSize, size)
  else
    return (chunk, prevChunkSize, size)

def free (pointer : Nat) : Run build σ Unit := do
  let s ← get
  paranoidAssert build !(Pointer.isNull s.baseAddress)
  let chunk := Pointer.uncheckedSub build.target pointer headerSize
  paranoidCheckChunk build E chunk
  let size ← load build chunk .size
  let prevChunkSize ← load build chunk .prevChunkSize
  paranoidAssert build (ChunkSize.isAllocated size)
  let (chunk, prevChunkSize, size) ← mergePrevFree build chunk prevChunkSize (ChunkSize.size size)
  let endOfSpace ← endOfAddressSpace build E
  let size ← mergeNextFree build (Pointer.uncheckedAdd build.target chunk size) endOfSpace size
  let _ ← registerFreeSpace build chunk prevChunkSize size
  storeFinalPrevSize build (Pointer.uncheckedAdd build.target chunk size) endOfSpace
    (freeChunkHeaderBytes build.target) size
  paranoidCheckChunk build E chunk

def shrinkInplace (pointer newSize : Nat) : Run build σ Unit := do
  if Size.isEmpty newSize then
    free build E pointer
  else do
    -- at `u32::MAX` this panics with overflow checks and wraps to zero without them
    let newSize ← Size.uncheckedAdd build newSize headerSize
    let chunk := Pointer.uncheckedSub build.target pointer headerSize
    paranoidCheckChunk build E chunk
    let currentSize ← load build chunk .size
    paranoidAssert build (ChunkSize.isAllocated currentSize)
    let currentSize := ChunkSize.size currentSize
    if newSize ≥ currentSize then
      return ()
    else do
      let freeSpace ← Size.uncheckedSub build currentSize newSize
      store build chunk .size (ChunkSize.newAllocated newSize)
      let endOfSpace ← endOfAddressSpace build E
      let freeSpace ← mergeNextFree build
        (Pointer.uncheckedAdd build.target chunk currentSize) endOfSpace freeSpace
      let nextChunk := Pointer.uncheckedAdd build.target chunk newSize
      let _ ← registerFreeSpace build nextChunk newSize freeSpace
      let finalChunk := Pointer.uncheckedAdd build.target nextChunk freeSpace
      storeFinalPrevSize build finalChunk endOfSpace chunkHeaderBytes freeSpace
      paranoidCheckChunk build E chunk
      paranoidCheckChunk build E nextChunk
      paranoidCheckChunk build E finalChunk

/-- The mutating half of `grow_inplace`. -/
def commitGrow (chunk newSize oldNextChunk oldNextSize newNextChunk remainingFreeSpace
    endOfSpace : Nat) : Run build σ Nat := do
  let bin ← sizeToBinRoundDown build oldNextSize
  unregisterFreeSpace build oldNextChunk bin
  store build chunk .size (ChunkSize.newAllocated newSize)
  let chunkSize ← registerFreeSpace build newNextChunk newSize remainingFreeSpace
  let finalChunk := Pointer.uncheckedAdd build.target newNextChunk remainingFreeSpace
  storeFinalPrevSize build finalChunk endOfSpace chunkHeaderBytes chunkSize
  paranoidCheckChunk build E chunk
  paranoidCheckChunk build E newNextChunk
  paranoidCheckChunk build E finalChunk
  Size.uncheckedSub build newSize headerSize

def growInto (chunk newSize currentSize oldNextChunk oldNextSize endOfSpace : Nat) :
    Run build σ (Option Nat) := do
  let availableSpace ← Size.uncheckedAdd build currentSize oldNextSize
  if availableSpace < newSize then
    return none
  else do
    let remainingFreeSpace ← Size.uncheckedSub build availableSpace newSize
    let newNextChunk := Pointer.uncheckedAdd build.target chunk newSize
    let s ← get
    let endOffset ← Size.fromPointerAndBaseUnchecked build newNextChunk s.baseAddress
    let endOffset ← withFreeHeader build endOffset remainingFreeSpace
    let isOk ← expandTo build E endOffset
    if !isOk then
      return none
    else do
      let usable ← commitGrow build E chunk newSize oldNextChunk oldNextSize newNextChunk
        remainingFreeSpace endOfSpace
      return some usable

def growInplace (pointer newSize : Nat) : Run build σ (Option Nat) := do
  -- a `checked_add`, unlike in `shrink_inplace`
  match Size.checkedAdd newSize headerSize with
  | none => return none
  | some newSize => do
      let chunk := Pointer.uncheckedSub build.target pointer headerSize
      paranoidCheckChunk build E chunk
      let currentSize ← load build chunk .size
      paranoidAssert build (ChunkSize.isAllocated currentSize)
      let currentSize := ChunkSize.size currentSize
      if currentSize ≥ newSize then
        let usable ← Size.uncheckedSub build currentSize headerSize
        return some usable
      else do
        let endOfSpace ← endOfAddressSpace build E
        let oldNextChunk := Pointer.uncheckedAdd build.target chunk currentSize
        if oldNextChunk ≥ endOfSpace then
          return none
        else do
          paranoidCheckChunk build E oldNextChunk
          let oldNextSize ← load build oldNextChunk .size
          if ChunkSize.isAllocated oldNextSize then
            return none
          else
            growInto build E chunk newSize currentSize oldNextChunk (ChunkSize.size oldNextSize)
              endOfSpace

def usableSizeImpl (pointer : Nat) : Run build σ Nat := do
  let size ← load build (Pointer.uncheckedSub build.target pointer headerSize) .size
  Size.uncheckedSub build (ChunkSize.size size) headerSize

def usableSize (pointer : Nat) : Run build σ Nat := do
  let size ← usableSizeImpl build pointer
  return Size.bytes size

/-- The end of `realloc`: allocate, copy and free. -/
def reallocMove (pointer align newSize currentSize : Nat) : Run build σ (Option Nat) := do
  let newPointer ← alloc build E align newSize
  match newPointer with
  | none => return none
  | some newPointer => do
      -- the whole of the old payload, however large the new one is
      copyPayload build pointer newPointer (Size.bytes currentSize)
      free build E pointer
      return some newPointer

def realloc (pointer align newSize : Nat) : Run build σ (Option Nat) := do
  let currentSize ← usableSizeImpl build pointer
  if newSize = currentSize then
    return some pointer
  else if Size.isEmpty newSize then do
    free build E pointer
    return none
  else if build.reallocInplace then
    if newSize < currentSize then do
      shrinkInplace build E pointer newSize
      return some pointer
    else do
      let grown ← growInplace build E pointer newSize
      if grown.isSome then
        return some pointer
      else
        reallocMove build E pointer align newSize currentSize
  else
    reallocMove build E pointer align newSize currentSize

def drop : Run build σ Unit := do
  let s ← get
  -- the base is null where nothing was reserved
  freeAddressSpace build E s.baseAddress

end Operations

end Picoalloc
