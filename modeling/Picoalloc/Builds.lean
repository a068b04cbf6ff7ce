import Picoalloc.Foundation.Erasure
import Picoalloc.Processes

/-!
The build without the paranoid checks and the overflow checks against a build with them.
As long as the checked build does not panic, the other one does the same: with any
environment, whatever pointers it is passed, and for every call of a process.
-/

namespace Picoalloc
open CheckedMachine ByteMemory Libc

abbrev Build.release (build : Build) : Build :=
  { build with paranoid := false, overflowChecks := false }

variable {build : Build} {σ : Type} {E : Env σ}

-- The longest functions take more instances than the default allows.
set_option synthInstance.maxSize 4000

section Values

variable (checks : Bool) {width : Nat}

instance toBinIndexGeneric_agrees (mantissaBits : Nat) (roundUp : Bool) (size : Nat) :
    Agrees (Bins.toBinIndexGeneric checks mantissaBits roundUp size)
      (Bins.toBinIndexGeneric false mantissaBits roundUp size) := by
  unfold Bins.toBinIndexGeneric
  dsimp only
  infer_instance

instance set_agrees (mask : BitMask width) (index : BitIndex) :
    Agrees (BitMask.set checks mask index) (BitMask.set false mask index) := by
  unfold BitMask.set
  infer_instance

instance unset_agrees (mask : BitMask width) (index : BitIndex) :
    Agrees (BitMask.unset checks mask index) (BitMask.unset false mask index) := by
  unfold BitMask.unset
  dsimp only
  infer_instance

instance lowestSetBitAfter_agrees (value : BitVec width) (bitIndex : Nat) :
    Agrees (BitMask.lowestSetBitAfter checks value bitIndex)
      (BitMask.lowestSetBitAfter false value bitIndex) := by
  unfold BitMask.lowestSetBitAfter
  dsimp only
  infer_instance

instance findFirst_agrees (mask : BitMask width) (minIndex : BitIndex) :
    Agrees (BitMask.findFirst checks mask minIndex) (BitMask.findFirst false mask minIndex) := by
  unfold BitMask.findFirst
  dsimp only
  infer_instance

instance uncheckedAdd_agrees (size rhs : Nat) :
    Agrees (Size.uncheckedAdd build size rhs) (Size.uncheckedAdd build.release size rhs) := by
  unfold Size.uncheckedAdd
  infer_instance

instance uncheckedSub_agrees (size rhs : Nat) :
    Agrees (Size.uncheckedSub build size rhs) (Size.uncheckedSub build.release size rhs) := by
  unfold Size.uncheckedSub
  infer_instance

instance fromPointerAndBase_agrees (pointer base : Nat) :
    Agrees (Size.fromPointerAndBaseUnchecked build pointer base)
      (Size.fromPointerAndBaseUnchecked build.release pointer base) := by
  unfold Size.fromPointerAndBaseUnchecked
  infer_instance

instance alignOffset_agrees (x a b : Nat) :
    Agrees (alignOffset build x a b) (alignOffset build.release x a b) := by
  unfold alignOffset
  infer_instance

instance withFreeHeader_agrees (endOffset freeSpace : Nat) :
    Agrees (withFreeHeader build endOffset freeSpace)
      (withFreeHeader build.release endOffset freeSpace) := by
  unfold withFreeHeader
  infer_instance

end Values

section Tests

instance paranoidAssert_erases (condition : Bool) :
    Erases id (paranoidAssert (σ := σ) build condition) (paranoidAssert build.release condition) :=
  .test fun _ => inferInstance

instance paranoidCheckAccess_erases (pointer bytes : Nat) :
    Erases id (paranoidCheckAccess (σ := σ) build pointer bytes)
      (paranoidCheckAccess build.release pointer bytes) :=
  .test fun _ => inferInstance

instance paranoidCheckChunk_erases (chunk : Nat) :
    Erases id (paranoidCheckChunk build E chunk) (paranoidCheckChunk build.release E chunk) :=
  .test fun _ => inferInstance

instance checkFirstChunk_erases (chunk : Nat) (bin : BitIndex) :
    Erases id (checkFirstChunk (σ := σ) build chunk bin) (checkFirstChunk build.release chunk bin) :=
  .test fun _ => inferInstance

instance checkBinOfChunk_erases (chunkSize : Nat) (bin : BitIndex) :
    Erases id (checkBinOfChunk (σ := σ) build chunkSize bin)
      (checkBinOfChunk build.release chunkSize bin) :=
  .test fun _ => inferInstance

instance checkSizeOfChunk_erases (chunk requestedSize : Nat) :
    Erases id (checkSizeOfChunk (σ := σ) build chunk requestedSize)
      (checkSizeOfChunk build.release chunk requestedSize) :=
  .test fun _ => inferInstance

end Tests

section Operations

instance load_erases (chunk : Nat) (field : Field) :
    Erases id (load (σ := σ) build chunk field) (load build.release chunk field) :=
  ⟨fun _ _ _ ran => ran⟩

instance store_erases (chunk : Nat) (field : Field) (value : Nat) :
    Erases id (store (σ := σ) build chunk field value) (store build.release chunk field value) :=
  ⟨fun _ _ _ ran => ran⟩

instance zeroPayload_erases (address length : Nat) :
    Erases id (zeroPayload (σ := σ) build address length) (zeroPayload build.release address length) :=
  ⟨fun _ _ _ ran => ran⟩

instance copyPayload_erases (source destination length : Nat) :
    Erases id (copyPayload (σ := σ) build source destination length)
      (copyPayload build.release source destination length) :=
  ⟨fun _ _ _ ran => ran⟩

instance getFirstInFreeList_erases (bin : Nat) :
    Erases id (getFirstInFreeList (σ := σ) build bin) (getFirstInFreeList build.release bin) :=
  ⟨fun _ _ _ ran => ran⟩

instance setFirstInFreeList_erases (bin chunk : Nat) :
    Erases id (setFirstInFreeList (σ := σ) build bin chunk)
      (setFirstInFreeList build.release bin chunk) :=
  ⟨fun _ _ _ ran => ran⟩

instance allocateAddressSpace_erases :
    Erases id (allocateAddressSpace build E) (allocateAddressSpace build.release E) :=
  ⟨fun _ _ _ ran => ran⟩

instance expandMemoryUntil_erases (base size : Nat) :
    Erases id (expandMemoryUntil build E base size) (expandMemoryUntil build.release E base size) :=
  ⟨fun _ _ _ ran => ran⟩

instance freeAddressSpace_erases (base : Nat) :
    Erases id (freeAddressSpace build E base) (freeAddressSpace build.release E base) :=
  ⟨fun _ _ _ ran => ran⟩

instance expandTo_erases (endOffset : Nat) :
    Erases id (expandTo build E endOffset) (expandTo build.release E endOffset) :=
  ⟨fun _ _ _ ran => ran⟩

instance endOfAddressSpace_erases :
    Erases id (endOfAddressSpace build E) (endOfAddressSpace build.release E) :=
  ⟨fun _ _ _ ran => ran⟩

instance setBin_erases (bin : BitIndex) :
    Erases id (setBin (σ := σ) build bin) (setBin build.release bin) := by
  unfold setBin
  infer_instance

instance unsetBin_erases (bin : BitIndex) :
    Erases id (unsetBin (σ := σ) build bin) (unsetBin build.release bin) := by
  unfold unsetBin
  infer_instance

instance findFirstBin_erases (minIndex : BitIndex) :
    Erases id (findFirstBin (σ := σ) build minIndex) (findFirstBin build.release minIndex) := by
  unfold findFirstBin
  infer_instance

instance sizeToBinRoundDown_erases (size : Nat) :
    Erases id (sizeToBinRoundDown (σ := σ) build size) (sizeToBinRoundDown build.release size) := by
  unfold sizeToBinRoundDown
  infer_instance

instance sizeToBinRoundUp_erases (size : Nat) :
    Erases id (sizeToBinRoundUp (σ := σ) build size) (sizeToBinRoundUp build.release size) := by
  unfold sizeToBinRoundUp
  infer_instance

instance findBin_erases (minSize : Nat) :
    Erases id (findBin (σ := σ) build minSize) (findBin build.release minSize) := by
  unfold findBin
  infer_instance

instance writeChunkHeader_erases (chunk prevChunkSize size : Nat) :
    Erases id (writeChunkHeader (σ := σ) build chunk prevChunkSize size)
      (writeChunkHeader build.release chunk prevChunkSize size) := by
  unfold writeChunkHeader
  infer_instance

instance writeFreeChunkHeader_erases (chunk prevChunkSize size nextInList prevInList : Nat) :
    Erases id (writeFreeChunkHeader (σ := σ) build chunk prevChunkSize size nextInList prevInList)
      (writeFreeChunkHeader build.release chunk prevChunkSize size nextInList prevInList) := by
  unfold writeFreeChunkHeader
  infer_instance

instance linkBack_erases (nextInList prevInList : Nat) :
    Erases id (linkBack (σ := σ) build nextInList prevInList)
      (linkBack build.release nextInList prevInList) := by
  unfold linkBack
  infer_instance

instance unregisterFreeSpaceFirstChunk_erases (chunk : Nat) (bin : BitIndex) :
    Erases id (unregisterFreeSpaceFirstChunk (σ := σ) build chunk bin)
      (unregisterFreeSpaceFirstChunk build.release chunk bin) := by
  unfold unregisterFreeSpaceFirstChunk
  infer_instance

instance unregisterFreeSpace_erases (chunk : Nat) (bin : BitIndex) :
    Erases id (unregisterFreeSpace (σ := σ) build chunk bin)
      (unregisterFreeSpace build.release chunk bin) := by
  unfold unregisterFreeSpace
  infer_instance

instance registerFreeSpace_erases (chunk prevChunkSize size : Nat) :
    Erases id (registerFreeSpace (σ := σ) build chunk prevChunkSize size)
      (registerFreeSpace build.release chunk prevChunkSize size) := by
  unfold registerFreeSpace
  infer_instance

instance registerAllocation_erases (chunk prevChunkSize size : Nat) :
    Erases id (registerAllocation (σ := σ) build chunk prevChunkSize size)
      (registerAllocation build.release chunk prevChunkSize size) := by
  unfold registerAllocation
  infer_instance

instance mergeNextFree_erases (nextChunk endOfSpace size : Nat) :
    Erases id (mergeNextFree (σ := σ) build nextChunk endOfSpace size)
      (mergeNextFree build.release nextChunk endOfSpace size) := by
  unfold mergeNextFree
  infer_instance

instance mergePrevFree_erases (chunk prevChunkSize size : Nat) :
    Erases id (mergePrevFree (σ := σ) build chunk prevChunkSize size)
      (mergePrevFree build.release chunk prevChunkSize size) := by
  unfold mergePrevFree
  dsimp only
  infer_instance

instance storeFinalPrevSize_erases (finalChunk endOfSpace bytes prevChunkSize : Nat) :
    Erases id (storeFinalPrevSize (σ := σ) build finalChunk endOfSpace bytes prevChunkSize)
      (storeFinalPrevSize build.release finalChunk endOfSpace bytes prevChunkSize) := by
  unfold storeFinalPrevSize
  infer_instance

instance registerFirstChunk_erases (baseAddress : Nat) :
    Erases id (registerFirstChunk build E baseAddress)
      (registerFirstChunk build.release E baseAddress) := by
  unfold registerFirstChunk
  dsimp only
  infer_instance

instance initializeImpl_erases :
    Erases id (initializeImpl build E) (initializeImpl build.release E) := by
  unfold initializeImpl
  infer_instance

instance initializeAllocator_erases :
    Erases id (initializeAllocator build E) (initializeAllocator build.release E) := by
  unfold initializeAllocator
  infer_instance

instance cutChunk_erases (chunk chunkSize align requestedSize : Nat) :
    Erases id (cutChunk (σ := σ) build chunk chunkSize align requestedSize)
      (cutChunk build.release chunk chunkSize align requestedSize) := by
  unfold cutChunk
  infer_instance

instance carveChunk_erases (chunk : Nat) (bin : BitIndex) (requestedSize : Nat) (cut : Cut) :
    Erases id (carveChunk build E chunk bin requestedSize cut)
      (carveChunk build.release E chunk bin requestedSize cut) := by
  unfold carveChunk
  dsimp only
  infer_instance

instance finishAlloc_erases (allocationChunk align requestedSize : Nat) (zeroMemory : Bool) :
    Erases id (finishAlloc build E allocationChunk align requestedSize zeroMemory)
      (finishAlloc build.release E allocationChunk align requestedSize zeroMemory) := by
  unfold finishAlloc
  dsimp only
  infer_instance

instance commitAlloc_erases (chunk : Nat) (bin : BitIndex) (align requestedSize : Nat) (cut : Cut)
    (zeroMemory : Bool) :
    Erases id (commitAlloc build E chunk bin align requestedSize cut zeroMemory) (commitAlloc build.release E chunk bin align requestedSize cut zeroMemory) := by
  unfold commitAlloc
  infer_instance

instance allocFrom_erases (bin : BitIndex) (minSize align requestedSize : Nat) (isCalloc : Bool) :
    Erases id (allocFrom build E bin minSize align requestedSize isCalloc)
      (allocFrom build.release E bin minSize align requestedSize isCalloc) := by
  unfold allocFrom
  dsimp only
  infer_instance

instance minSizeFor_erases (align requestedSize : Nat) :
    Erases id (minSizeFor (σ := σ) build align requestedSize)
      (minSizeFor build.release align requestedSize) := by
  unfold minSizeFor
  cases Size.checkedAdd requestedSize headerSize <;> infer_instance

instance allocInitialized_erases (align requestedSize : Nat) (isCalloc : Bool) :
    Erases id (allocInitialized build E align requestedSize isCalloc)
      (allocInitialized build.release E align requestedSize isCalloc) := by
  have chosen : ∀ minSize bin, Erases id
      (match bin with
        | none => return none
        | some bin => allocFrom build E bin minSize align requestedSize isCalloc :
          Run build σ (Option Nat))
      (match bin with
        | none => return none
        | some bin => allocFrom build.release E bin minSize align requestedSize isCalloc) := by
    intro minSize bin
    cases bin <;> infer_instance
  unfold allocInitialized
  exact .option inferInstance inferInstance fun _ => inferInstance

instance allocImpl_erases (align requestedSize : Nat) (isCalloc : Bool) :
    Erases id (allocImpl build E align requestedSize isCalloc)
      (allocImpl build.release E align requestedSize isCalloc) := by
  unfold allocImpl
  infer_instance

instance alloc_erases (align requestedSize : Nat) :
    Erases id (alloc build E align requestedSize) (alloc build.release E align requestedSize) :=
  allocImpl_erases align requestedSize false

instance allocZeroed_erases (align requestedSize : Nat) :
    Erases id (allocZeroed build E align requestedSize)
      (allocZeroed build.release E align requestedSize) :=
  allocImpl_erases align requestedSize true

instance free_erases (pointer : Nat) :
    Erases id (free build E pointer) (free build.release E pointer) := by
  unfold free
  dsimp only
  infer_instance

instance shrinkInplace_erases (pointer newSize : Nat) :
    Erases id (shrinkInplace build E pointer newSize)
      (shrinkInplace build.release E pointer newSize) := by
  unfold shrinkInplace
  dsimp only
  infer_instance

instance commitGrow_erases (chunk newSize oldNextChunk oldNextSize newNextChunk remainingFreeSpace
    endOfSpace : Nat) :
    Erases id (commitGrow build E chunk newSize oldNextChunk oldNextSize newNextChunk
        remainingFreeSpace endOfSpace)
      (commitGrow build.release E chunk newSize oldNextChunk oldNextSize newNextChunk
        remainingFreeSpace endOfSpace) := by
  unfold commitGrow
  dsimp only
  infer_instance

instance growInto_erases (chunk newSize currentSize oldNextChunk oldNextSize endOfSpace : Nat) :
    Erases id (growInto build E chunk newSize currentSize oldNextChunk oldNextSize endOfSpace)
      (growInto build.release E chunk newSize currentSize oldNextChunk oldNextSize endOfSpace) := by
  unfold growInto
  dsimp only
  infer_instance

instance growInplace_erases (pointer newSize : Nat) :
    Erases id (growInplace build E pointer newSize) (growInplace build.release E pointer newSize) := by
  unfold growInplace
  dsimp only
  cases Size.checkedAdd newSize headerSize <;> infer_instance

instance usableSizeImpl_erases (pointer : Nat) :
    Erases id (usableSizeImpl (σ := σ) build pointer) (usableSizeImpl build.release pointer) := by
  unfold usableSizeImpl
  infer_instance

instance usableSize_erases (pointer : Nat) :
    Erases id (usableSize (σ := σ) build pointer) (usableSize build.release pointer) := by
  unfold usableSize
  infer_instance

instance reallocMove_erases (pointer align newSize currentSize : Nat) :
    Erases id (reallocMove build E pointer align newSize currentSize)
      (reallocMove build.release E pointer align newSize currentSize) := by
  unfold reallocMove
  exact .option inferInstance inferInstance fun _ => inferInstance

instance realloc_erases (pointer align newSize : Nat) :
    Erases id (realloc build E pointer align newSize) (realloc build.release E pointer align newSize) := by
  unfold realloc
  infer_instance

end Operations

section FrontEnds

def Libc.Process.release (process : Process build σ) : Process build.release σ :=
  ⟨process.globalAllocator, process.errno⟩

variable {α β : Type}

instance locked_erases {run : Run build σ α} {run' : Run build.release σ α} [here : Erases id run run'] :
    Erases Process.release (locked build run) (locked build.release run') where
  erases process value process' ran := by
    obtain ⟨⟨_, s'⟩, began, done⟩ := result_done ran
    cases done
    have followed : run' process.globalAllocator = .ok (value, s') := here.erases _ _ _ began
    rw [locked, Process.release, followed]
    rfl

instance setErrno_erases (value : Nat) :
    Erases Process.release (setErrno (σ := σ) build value) (setErrno build.release value) where
  erases process _ process' ran := by
    cases ran
    rfl

instance outOfMemory_erases :
    Erases Process.release (outOfMemory (σ := σ) build) (outOfMemory build.release) := by
  unfold outOfMemory
  infer_instance

instance allocateLayout_erases {allocate : Nat → Nat → Run build σ (Option Nat)}
    {allocate' : Nat → Nat → Run build.release σ (Option Nat)}
    [here : ∀ align size, Erases id (allocate align size) (allocate' align size)]
    (layout : Layout build.target) :
    Erases id (GlobalAlloc.allocateLayout build allocate layout)
      (GlobalAlloc.allocateLayout build.release allocate' layout) := by
  unfold GlobalAlloc.allocateLayout
  cases Size.fromBytesUsize build.target layout.align with
  | none => infer_instance
  | some align => cases Size.fromBytesUsize build.target layout.size <;> infer_instance

instance globalAlloc_erases (layout : Layout build.target) :
    Erases id (GlobalAlloc.alloc build E layout) (GlobalAlloc.alloc build.release E layout) :=
  allocateLayout_erases layout

instance globalAllocZeroed_erases (layout : Layout build.target) :
    Erases id (GlobalAlloc.allocZeroed build E layout)
      (GlobalAlloc.allocZeroed build.release E layout) :=
  allocateLayout_erases layout

instance globalRealloc_erases (pointer : Nat) (layout : Layout build.target) (newSize : Nat) :
    Erases id (GlobalAlloc.realloc build E pointer layout newSize)
      (GlobalAlloc.realloc build.release E pointer layout newSize) := by
  unfold GlobalAlloc.realloc
  cases nonNull pointer with
  | none => infer_instance
  | some pointer =>
      cases Size.fromBytesUsize build.target layout.align with
      | none => infer_instance
      | some align => cases Size.fromBytesUsize build.target newSize <;> infer_instance

instance globalDealloc_erases (pointer : Nat) (layout : Layout build.target) :
    Erases id (GlobalAlloc.dealloc build E pointer layout)
      (GlobalAlloc.dealloc build.release E pointer layout) := by
  unfold GlobalAlloc.dealloc
  cases nonNull pointer <;> infer_instance

instance calloc_erases (count size : Nat) :
    Erases Process.release (calloc build E count size) (calloc build.release E count size) := by
  unfold calloc
  cases checkedMul build.target count size with
  | none => infer_instance
  | some total =>
      dsimp only [Build.release]
      cases Size.fromBytesUsize build.target total with
      | none => infer_instance
      | some total => exact .option inferInstance inferInstance fun _ => inferInstance

instance posixMemalign_erases (result align size : Nat) :
    Erases Process.release (posixMemalign build E result align size)
      (posixMemalign build.release E result align size) := by
  unfold posixMemalign
  refine @erases_ite _ _ _ _ _ _ _ _ _ _ inferInstance ?_
  cases Size.fromBytesUsize build.target size with
  | none => infer_instance
  | some size =>
      cases Size.fromBytesUsize build.target align with
      | none => infer_instance
      | some align => exact .option inferInstance inferInstance fun _ => inferInstance

instance alignedAlloc_erases (align size : Nat) :
    Erases Process.release (alignedAlloc build E align size)
      (alignedAlloc build.release E align size) := by
  unfold alignedAlloc
  infer_instance

instance memalign_erases (align size : Nat) :
    Erases Process.release (memalign build E align size) (memalign build.release E align size) :=
  alignedAlloc_erases align size

instance malloc_erases (size : Nat) :
    Erases Process.release (malloc build E size) (malloc build.release E size) :=
  alignedAlloc_erases _ size

instance libcFree_erases (pointer : Nat) :
    Erases Process.release (Libc.free build E pointer) (Libc.free build.release E pointer) := by
  unfold Libc.free
  cases nonNull pointer <;> infer_instance

instance libcRealloc_erases (pointer size : Nat) :
    Erases Process.release (Libc.realloc build E pointer size)
      (Libc.realloc build.release E pointer size) := by
  unfold Libc.realloc
  cases nonNull pointer with
  | none => infer_instance
  | some pointer =>
      refine @erases_ite _ _ _ _ _ _ _ _ _ _ inferInstance ?_
      cases Size.fromBytesUsize build.target size with
      | none => infer_instance
      | some size => exact .option inferInstance inferInstance fun _ => inferInstance

instance reallocarray_erases (pointer count size : Nat) :
    Erases Process.release (reallocarray build E pointer count size)
      (reallocarray build.release E pointer count size) := by
  unfold reallocarray
  cases checkedMul build.target count size <;> infer_instance

instance mallocUsableSize_erases (pointer : Nat) :
    Erases id (mallocUsableSize (σ := σ) build pointer) (mallocUsableSize build.release pointer) := by
  unfold mallocUsableSize
  cases nonNull pointer <;> infer_instance

end FrontEnds

section Runs

theorem call_erases (c : Call build.target) :
    Erases Process.release (call build E c) (call build.release E c) := by
  cases c with
  | read | write =>
      constructor
      intro process _ process' ran
      cases ran
      rfl
  | mallocUsableSize pointer =>
      constructor
      intro process reply process' ran
      obtain ⟨⟨size, s'⟩, read, done⟩ := result_done ran
      cases done
      have followed : mallocUsableSize build.release pointer process.globalAllocator =
          .ok (size, s') := (mallocUsableSize_erases pointer).erases _ _ _ read
      simp only [call, Process.release, followed]
      rfl
  | _ =>
      unfold call
      infer_instance

variable {history seen : List (Call build.target × Reply)} {process process' : Process build σ}

/-- What a process sees of a build with checks, it sees of the build without them. -/
theorem release_same (client : Client (Call build.target) Reply) (steps : Nat)
    (ran : play (call build E) client steps history process = .ok (seen, process')) :
    play (call build.release E) client steps history process.release = .ok (seen, process'.release) :=
  Erases.play call_erases client steps ran

/-- A process that is checked up to its last call. -/
theorem release_same_sample : ∃ seen process,
    play (call sampleBuild sampleEnv) sampleProcess 5 []
        ⟨Allocator.new sampleBuild () fun _ => 0, 0⟩ = .ok (seen, process) ∧
      play (call sampleBuild.release sampleEnv) sampleProcess 5 []
        (Process.release ⟨Allocator.new sampleBuild () fun _ => 0, 0⟩) =
          .ok (seen, process.release) := by
  have refines : Refines (Backs sampleEnv fun _ => 0) Objects.Permitted (call sampleBuild sampleEnv)
      (Objects.Step sampleBuild.target False) := call_step sample_lawful rfl False.elim
  obtain ⟨seen, process, _, ran, -⟩ :=
    refines.play sampleProcess_careful (Backs.start () 0) 5
  exact ⟨seen, process, ran, release_same sampleProcess 5 ran⟩

variable {total : Nat} {memory : Memory}

/-- A process that keeps to what its objects permit sees the same of every build: checks change
neither an answer nor the allocator nor a byte of memory. -/
theorem builds_agree (lawful : E.Lawful build.target total) (inplace : build.reallocInplace = true)
    (env : σ) (errno : Nat) (client : Client (Call build.target) Reply)
    (careful : Careful (Objects.Step build.target False) Objects.Permitted client
      { Objects.empty with errno }) (steps : Nat) :
    ∃ history process,
      play (call build E) client steps [] ⟨Allocator.new build env memory, errno⟩ =
        .ok (history, process) ∧
      play (call build.release E) client steps [] ⟨Allocator.new build.release env memory, errno⟩ =
        .ok (history, process.release) := by
  obtain ⟨history, process, _, ran, -⟩ :=
    (call_step lawful inplace False.elim).play careful (Backs.start env errno) steps
  exact ⟨history, process, ran, Erases.play call_erases client steps ran⟩

/-- The calls of a process in both builds. -/
theorem builds_agree_sample : ∃ history process,
    play (call sampleBuild sampleEnv) sampleProcess 5 []
        ⟨Allocator.new sampleBuild () fun _ => 0, 0⟩ = .ok (history, process) ∧
      play (call sampleBuild.release sampleEnv) sampleProcess 5 []
        ⟨Allocator.new sampleBuild.release () fun _ => 0, 0⟩ = .ok (history, process.release) :=
  builds_agree sample_lawful rfl () 0 sampleProcess sampleProcess_careful 5

end Runs

end Picoalloc
