import Picoalloc.Sessions

/-!
What the functions of the allocator leave alone in any state and for any
environment, lawful or not: tests read only, and whatever does not initialize
keeps the base and the reservations.
-/

namespace Picoalloc
open CheckedMachine

variable {build : Build} {σ : Type} {E : Env σ}

-- The longest functions take more instances than the default allows.
set_option synthInstance.maxSize 1000

section Reads

variable {invariant : AllocatorState build σ → Prop}

instance load_maintains (chunk : Nat) (field : Field) : Maintains invariant (load build chunk field) where
  keeps s value s' holds ran := by
    simp only [load] at ran
    split at ran
    · cases ran
    · split at ran
      · cases ran
        exact holds
      · cases ran

instance assertTrue_maintains (condition : Bool) :
    Maintains invariant (assertTrue build condition) := by
  unfold assertTrue
  infer_instance

instance paranoidAssert_maintains (condition : Bool) :
    Maintains invariant (paranoidAssert build condition) := by
  unfold paranoidAssert
  infer_instance

instance paranoidCheckAccess_maintains (pointer bytes : Nat) :
    Maintains invariant (paranoidCheckAccess build pointer bytes) := by
  unfold paranoidCheckAccess
  infer_instance

instance endOfAddressSpace_maintains : Maintains invariant (endOfAddressSpace build E) := by
  unfold endOfAddressSpace
  infer_instance

instance checkPrevChunk_maintains (chunk : Nat) (isAllocated : Bool) (baseAddress prevChunkSize : Nat) :
    Maintains invariant (checkPrevChunk build chunk isAllocated baseAddress prevChunkSize) := by
  unfold checkPrevChunk
  infer_instance

instance checkNextChunk_maintains (chunk : Nat) (isAllocated : Bool) (endOfSpace size : Nat) :
    Maintains invariant (checkNextChunk build chunk isAllocated endOfSpace size) := by
  unfold checkNextChunk
  infer_instance

instance paranoidCheckChunk_maintains (chunk : Nat) :
    Maintains invariant (paranoidCheckChunk build E chunk) := by
  unfold paranoidCheckChunk
  dsimp only
  infer_instance

instance getFirstInFreeList_maintains (bin : Nat) :
    Maintains invariant (getFirstInFreeList build bin) := by
  unfold getFirstInFreeList
  infer_instance

instance findFirstBin_maintains (minIndex : BitIndex) :
    Maintains invariant (findFirstBin build minIndex) := by
  unfold findFirstBin
  infer_instance

instance sizeToBinRoundDown_maintains (size : Nat) :
    Maintains invariant (sizeToBinRoundDown build size) := by
  unfold sizeToBinRoundDown
  infer_instance

instance sizeToBinRoundUp_maintains (size : Nat) :
    Maintains invariant (sizeToBinRoundUp build size) := by
  unfold sizeToBinRoundUp
  infer_instance

instance findBin_maintains (minSize : Nat) :
    Maintains invariant (findBin build minSize) := by
  unfold findBin
  infer_instance

instance checkFirstChunk_maintains (chunk : Nat) (bin : BitIndex) :
    Maintains invariant (checkFirstChunk build chunk bin) := by
  unfold checkFirstChunk
  infer_instance

instance checkBinOfChunk_maintains (chunkSize : Nat) (bin : BitIndex) :
    Maintains invariant (checkBinOfChunk build chunkSize bin) := by
  unfold checkBinOfChunk
  infer_instance

instance checkSizeOfChunk_maintains (chunk requestedSize : Nat) :
    Maintains invariant (checkSizeOfChunk build chunk requestedSize) := by
  unfold checkSizeOfChunk
  infer_instance

instance cutChunk_maintains (chunk chunkSize align requestedSize : Nat) :
    Maintains invariant (cutChunk build chunk chunkSize align requestedSize) := by
  unfold cutChunk
  infer_instance

instance minSizeFor_maintains (align requestedSize : Nat) :
    Maintains invariant (minSizeFor build align requestedSize) := by
  unfold minSizeFor
  split <;> infer_instance

instance usableSizeImpl_maintains (pointer : Nat) :
    Maintains invariant (usableSizeImpl build pointer) := by
  unfold usableSizeImpl
  infer_instance

end Reads

class Anchored (invariant : AllocatorState build σ → Prop) : Prop where
  congr : ∀ s s', s'.baseAddress = s.baseAddress → s'.trace = s.trace →
    s'.payloadWrites = s.payloadWrites → invariant s → invariant s'

class Framed (invariant : AllocatorState build σ → Prop) : Prop where
  congr : ∀ s s', s'.env = s.env → s'.baseAddress = s.baseAddress → s'.trace = s.trace →
    s'.payloadWrites = s.payloadWrites → invariant s → invariant s'

instance anchored_framed (invariant : AllocatorState build σ → Prop) [anchored : Anchored invariant] :
    Framed invariant where
  congr s s' _ := anchored.congr s s'

class Overwrites (invariant : AllocatorState build σ → Prop) : Prop where
  overwrite : ∀ s memory range, invariant s →
    invariant { s with memory, payloadWrites := range :: s.payloadWrites }

class Expands (E : Env σ) (invariant : AllocatorState build σ → Prop) : Prop where
  expand : ∀ s base size, invariant s → invariant { s with
    env := (E.expandMemoryUntil s.env base size).2
    trace := .expandMemoryUntil base size (E.expandMemoryUntil s.env base size).1 :: s.trace }

class Grows (E : Env σ) (invariant : AllocatorState build σ → Prop) : Prop where
  grow : ∀ s size, invariant s → invariant { s with
    env := (E.expandMemoryUntil s.env s.baseAddress size).2
    trace := .expandMemoryUntil s.baseAddress size
      (E.expandMemoryUntil s.env s.baseAddress size).1 :: s.trace }

instance expands_grows (invariant : AllocatorState build σ → Prop) [expands : Expands E invariant] :
    Grows E invariant where
  grow s := expands.expand s s.baseAddress

instance expandMemoryUntil_maintains {invariant : AllocatorState build σ → Prop}
    [expands : Expands E invariant] (base size : Nat) :
    Maintains invariant (expandMemoryUntil build E base size) where
  keeps s _ s' holds ran := by
    cases ran
    exact expands.expand s base size holds

section Writes

variable {invariant : AllocatorState build σ → Prop} [framed : Framed invariant]
  [overwrites : Overwrites invariant] [grows : Grows E invariant]

omit overwrites in
instance store_maintains (chunk : Nat) (field : Field) (value : Nat) :
    Maintains invariant (store build chunk field value) where
  keeps s _ s' holds ran := by
    simp only [store] at ran
    split at ran
    · cases ran
    · split at ran
      · cases ran
        exact framed.congr s _ rfl rfl rfl rfl holds
      · cases ran

instance zeroPayload_maintains (address length : Nat) :
    Maintains invariant (zeroPayload build address length) where
  keeps s _ s' holds ran := by
    simp only [zeroPayload] at ran
    split at ran
    · cases ran
      exact overwrites.overwrite s _ _ holds
    · cases ran

instance copyPayload_maintains (source destination length : Nat) :
    Maintains invariant (copyPayload build source destination length) where
  keeps s _ s' holds ran := by
    simp only [copyPayload] at ran
    split at ran
    · cases ran
    · split at ran
      · cases ran
        exact overwrites.overwrite s _ _ holds
      · cases ran

instance setFirstInFreeList_maintains (bin chunk : Nat) :
    Maintains invariant (setFirstInFreeList build bin chunk) := by
  have change : Maintains invariant (modify fun s => { s with
      firstInFreeList := s.firstInFreeList.set bin chunk } : Run build σ PUnit) := by
    constructor
    intro s _ s' holds ran
    cases ran
    exact framed.congr s _ rfl rfl rfl rfl holds
  unfold setFirstInFreeList
  infer_instance

instance setBin_maintains (bin : BitIndex) : Maintains invariant (setBin build bin) where
  keeps s _ s' holds ran := by
    rw [setBin, bind_ok (get_apply s)] at ran
    cases changed : BitMask.set build.overflowChecks s.freeListsWithUnallocatedMemory bin with
    | error fault =>
        rw [bind_error (lift_error changed s)] at ran
        cases ran
    | ok mask =>
        rw [bind_ok (lift_ok changed s)] at ran
        cases ran
        exact framed.congr s _ rfl rfl rfl rfl holds

instance unsetBin_maintains (bin : BitIndex) : Maintains invariant (unsetBin build bin) where
  keeps s _ s' holds ran := by
    rw [unsetBin, bind_ok (get_apply s)] at ran
    cases changed : BitMask.unset build.overflowChecks s.freeListsWithUnallocatedMemory bin with
    | error fault =>
        rw [bind_error (lift_error changed s)] at ran
        cases ran
    | ok mask =>
        rw [bind_ok (lift_ok changed s)] at ran
        cases ran
        exact framed.congr s _ rfl rfl rfl rfl holds

instance expandTo_maintains (endOffset : Nat) : Maintains invariant (expandTo build E endOffset) where
  keeps s isOk s' holds ran := by
    rw [expandTo, bind_ok (get_apply s)] at ran
    split at ran
    · obtain ⟨answer, s₁, asked, ran⟩ := bind_done ran
      have holds₁ : invariant s₁ := by
        cases asked
        exact grows.grow s endOffset holds
      split at ran
      · cases ran
        exact holds₁
      · cases ran
        exact framed.congr s₁ _ rfl rfl rfl rfl holds₁
    · cases ran
      exact holds

instance writeChunkHeader_maintains (chunk prevChunkSize size : Nat) :
    Maintains invariant (writeChunkHeader build chunk prevChunkSize size) := by
  unfold writeChunkHeader
  infer_instance

instance writeFreeChunkHeader_maintains (chunk prevChunkSize size nextInList prevInList : Nat) :
    Maintains invariant
      (writeFreeChunkHeader build chunk prevChunkSize size nextInList prevInList) := by
  unfold writeFreeChunkHeader
  infer_instance

instance linkBack_maintains (nextInList prevInList : Nat) :
    Maintains invariant (linkBack build nextInList prevInList) := by
  unfold linkBack
  infer_instance

instance unregisterFreeSpaceFirstChunk_maintains (chunk : Nat) (bin : BitIndex) :
    Maintains invariant (unregisterFreeSpaceFirstChunk build chunk bin) := by
  unfold unregisterFreeSpaceFirstChunk
  infer_instance

instance unregisterFreeSpace_maintains (chunk : Nat) (bin : BitIndex) :
    Maintains invariant (unregisterFreeSpace build chunk bin) := by
  unfold unregisterFreeSpace
  infer_instance

instance registerFreeSpace_maintains (chunk prevChunkSize size : Nat) :
    Maintains invariant (registerFreeSpace build chunk prevChunkSize size) := by
  unfold registerFreeSpace
  infer_instance

instance registerAllocation_maintains (chunk prevChunkSize size : Nat) :
    Maintains invariant (registerAllocation build chunk prevChunkSize size) := by
  unfold registerAllocation
  infer_instance

instance mergeNextFree_maintains (nextChunk endOfSpace size : Nat) :
    Maintains invariant (mergeNextFree build nextChunk endOfSpace size) := by
  unfold mergeNextFree
  infer_instance

instance mergePrevFree_maintains (chunk prevChunkSize size : Nat) :
    Maintains invariant (mergePrevFree build chunk prevChunkSize size) := by
  unfold mergePrevFree
  dsimp only
  infer_instance

instance storeFinalPrevSize_maintains (finalChunk endOfSpace bytes prevChunkSize : Nat) :
    Maintains invariant
      (storeFinalPrevSize build finalChunk endOfSpace bytes prevChunkSize) := by
  unfold storeFinalPrevSize
  infer_instance

instance carveChunk_maintains (chunk : Nat) (bin : BitIndex) (requestedSize : Nat) (cut : Cut) :
    Maintains invariant (carveChunk build E chunk bin requestedSize cut) := by
  unfold carveChunk
  dsimp only
  infer_instance

instance finishAlloc_maintains (allocationChunk align requestedSize : Nat) (zeroMemory : Bool) :
    Maintains invariant (finishAlloc build E allocationChunk align requestedSize zeroMemory) := by
  unfold finishAlloc
  dsimp only
  infer_instance

instance commitAlloc_maintains (chunk : Nat) (bin : BitIndex) (align requestedSize : Nat) (cut : Cut)
    (zeroMemory : Bool) :
    Maintains invariant (commitAlloc build E chunk bin align requestedSize cut zeroMemory) := by
  unfold commitAlloc
  infer_instance

instance allocFrom_maintains (bin : BitIndex) (minSize align requestedSize : Nat) (isCalloc : Bool) :
    Maintains invariant (allocFrom build E bin minSize align requestedSize isCalloc) := by
  unfold allocFrom
  dsimp only
  infer_instance

instance allocInitialized_maintains (align requestedSize : Nat) (isCalloc : Bool) :
    Maintains invariant (allocInitialized build E align requestedSize isCalloc) := by
  have chosen : ∀ minSize bin, Maintains invariant (match bin with
      | none => return none
      | some bin => allocFrom build E bin minSize align requestedSize isCalloc :
        Run build σ (Option Nat)) := by
    intro minSize bin
    cases bin <;> infer_instance
  have sized : ∀ minSize, Maintains invariant (match minSize with
      | none => return none
      | some minSize =>
          if minSize > maxAllocationSize then
            return none
          else do
            let bin ← findBin build minSize
            match bin with
            | none => return none
            | some bin => allocFrom build E bin minSize align requestedSize isCalloc :
        Run build σ (Option Nat)) := by
    intro minSize
    cases minSize <;> infer_instance
  unfold allocInitialized
  infer_instance

instance free_maintains (pointer : Nat) : Maintains invariant (free build E pointer) := by
  unfold free
  dsimp only
  infer_instance

instance shrinkInplace_maintains (pointer newSize : Nat) :
    Maintains invariant (shrinkInplace build E pointer newSize) := by
  have released : ∀ chunk newSize currentSize : Nat, Maintains invariant (do
      let freeSpace ← Size.uncheckedSub build currentSize newSize
      store build chunk .size (ChunkSize.newAllocated newSize)
      let endOfSpace ← endOfAddressSpace build E
      let freeSpace ← mergeNextFree build
        (Pointer.uncheckedAdd build.target chunk currentSize) endOfSpace freeSpace
      let _ ← registerFreeSpace build (Pointer.uncheckedAdd build.target chunk newSize) newSize freeSpace
      storeFinalPrevSize build (Pointer.uncheckedAdd build.target
        (Pointer.uncheckedAdd build.target chunk newSize) freeSpace) endOfSpace chunkHeaderBytes freeSpace
      paranoidCheckChunk build E chunk
      paranoidCheckChunk build E (Pointer.uncheckedAdd build.target chunk newSize)
      paranoidCheckChunk build E (Pointer.uncheckedAdd build.target
        (Pointer.uncheckedAdd build.target chunk newSize) freeSpace) : Run build σ Unit) :=
    fun _ _ _ => inferInstance
  unfold shrinkInplace
  dsimp only
  infer_instance

instance commitGrow_maintains (chunk newSize oldNextChunk oldNextSize newNextChunk remainingFreeSpace
    endOfSpace : Nat) : Maintains invariant (commitGrow build E chunk newSize oldNextChunk oldNextSize
      newNextChunk remainingFreeSpace endOfSpace) := by
  unfold commitGrow
  dsimp only
  infer_instance

instance growInto_maintains (chunk newSize currentSize oldNextChunk oldNextSize endOfSpace : Nat) :
    Maintains invariant
      (growInto build E chunk newSize currentSize oldNextChunk oldNextSize endOfSpace) := by
  unfold growInto
  dsimp only
  infer_instance

instance growInplace_maintains (pointer newSize : Nat) :
    Maintains invariant (growInplace build E pointer newSize) := by
  unfold growInplace
  dsimp only
  cases Size.checkedAdd newSize headerSize <;> infer_instance

omit overwrites grows in
theorem registerFirstChunk_keeps {base : Nat} {s s' : AllocatorState build σ}
    (entered : invariant { s with baseAddress := base, allocatedSpace := freeChunkHeaderSize })
    (ran : registerFirstChunk build E base s = .ok ((), s')) : invariant s' := by
  have rest : Maintains invariant (do
      paranoidCheckAccess build base (freeChunkHeaderBytes build.target)
      let s ← get
      let bin ← sizeToBinRoundDown build (E.totalSpace s.env)
      setBin build bin
      writeFreeChunkHeader build base 0 (ChunkSize.newUnallocated (E.totalSpace s.env)) Pointer.null
        Pointer.null
      setFirstInFreeList build bin.index base
      paranoidCheckChunk build E base) := inferInstance
  rw [registerFirstChunk, bind_ok (modify_apply _ s)] at ran
  exact rest.keeps _ _ _ entered ran

end Writes

section Calls

variable {invariant : AllocatorState build σ → Prop} [framed : Framed invariant]
  [overwrites : Overwrites invariant] [grows : Grows E invariant]
  [starts : Maintains invariant (initializeAllocator build E)]

instance allocImpl_maintains (align requestedSize : Nat) (isCalloc : Bool) :
    Maintains invariant (allocImpl build E align requestedSize isCalloc) := by
  unfold allocImpl
  infer_instance

instance reallocMove_maintains (pointer align newSize currentSize : Nat) :
    Maintains invariant
      (reallocMove build E pointer align newSize currentSize) := by
  have moved : ∀ newPointer : Option Nat, Maintains invariant
      (match newPointer with
        | none => return none
        | some newPointer => do
            copyPayload build pointer newPointer (Size.bytes currentSize)
            free build E pointer
            return some newPointer : Run build σ (Option Nat)) := by
    intro newPointer
    cases newPointer <;> infer_instance
  unfold reallocMove alloc
  infer_instance

instance realloc_maintains (pointer align newSize : Nat) :
    Maintains invariant (realloc build E pointer align newSize) := by
  unfold realloc
  infer_instance

variable {session session' : Session build σ} {op : Op} {outcome : Outcome}

/-- What initializing and the operations maintain, every call of a session does. -/
theorem step_maintains (holds : invariant session.allocator)
    (ran : step E op session = .ok (outcome, session')) : invariant session'.allocator := by
  -- Instance search finds that the operation itself keeps the invariant.
  have kept : ∀ {α : Type} (run : Run build σ α) [Maintains invariant run] result s',
      run session.allocator = .ok (result, s') → invariant s' :=
    fun _ _ result s' done => Maintains.keeps _ result s' holds done
  cases op with
  | alloc align size =>
      obtain ⟨⟨pointer, s'⟩, done, ran⟩ := result_done ran
      cases ran
      exact kept (allocImpl build E align size false) pointer s' done
  | allocZeroed align size =>
      obtain ⟨⟨pointer, s'⟩, done, ran⟩ := result_done ran
      cases ran
      exact kept (allocImpl build E align size true) pointer s' done
  | free handle =>
      obtain rfl | ⟨pointer, -, ran⟩ := onLive_done ran
      · exact holds
      obtain ⟨⟨_, s'⟩, done, ran⟩ := result_done ran
      cases ran
      exact kept _ _ s' done
  | shrinkInplace handle newSize =>
      obtain rfl | ⟨pointer, -, ran⟩ := onLive_done ran
      · exact holds
      obtain ⟨⟨_, s'⟩, done, ran⟩ := result_done ran
      have holds' : invariant s' := kept _ _ s' done
      dsimp only at ran
      split at ran <;> cases ran <;> exact holds'
  | growInplace handle newSize =>
      obtain rfl | ⟨pointer, -, ran⟩ := onLive_done ran
      · exact holds
      obtain ⟨⟨_, s'⟩, done, ran⟩ := result_done ran
      cases ran
      exact kept _ _ s' done
  | realloc handle align newSize =>
      obtain rfl | ⟨pointer, -, ran⟩ := onLive_done ran
      · exact holds
      obtain ⟨⟨result, s'⟩, done, ran⟩ := result_done ran
      have holds' : invariant s' := kept _ result s' done
      dsimp only at ran
      split at ran
      · cases ran
        exact holds'
      · split at ran <;> cases ran <;> exact holds'
  | write handle index byte =>
      obtain rfl | ⟨pointer, -, ran⟩ := onLive_done ran
      · exact holds
      cases ran
      exact framed.congr session.allocator _ rfl rfl rfl rfl holds

end Calls

end Picoalloc
