import Picoalloc.Allocator
import Picoalloc.Heap

/-!
What the operations decide, as functions of the abstract heap: the fit that
`alloc_impl` chooses and how it cuts it, and the heap after each operation. None
of them looks at payload bytes; alignment is all that the base is needed for.
-/

namespace Picoalloc
open Tilings

variable (target : Target)

def Gap.fill (gap : Gap) : Gap := gap.placeFree target gap.size

namespace Heap

def fresh (total : Nat) : Heap :=
  { chunks := [⟨total, false⟩]
    bins := insertFree (fun _ => []) (Bins.binOf target total) 0
    allocatedSpace := freeChunkHeaderSize }

def expand (need : Nat) (heap : Heap) : Heap :=
  { heap with allocatedSpace := max heap.allocatedSpace need }

def free (place : Nat) (heap : Heap) : Heap :=
  match splitAt Chunk.size place heap.chunks with
  | none => heap
  | some (before, chunk, after) =>
      let gap : Gap := { before, size := chunk.size, after, bins := heap.bins }
      (((gap.absorbPrev target).absorbNext target).fill target).heap heap.allocatedSpace

def resize (place new : Nat) (heap : Heap) : Heap :=
  match splitAt Chunk.size place heap.chunks with
  | none => heap
  | some (before, chunk, after) =>
      let gap : Gap := { before := before ++ [chunk], size := 0, after, bins := heap.bins }
      (((gap.absorbNext target).resize before chunk.size new).fill target).heap heap.allocatedSpace

def shrink (place newSize : Nat) (heap : Heap) : Heap :=
  match splitAt Chunk.size place heap.chunks with
  | none => heap
  | some (_, chunk, _) =>
      if newSize + headerSize ≥ chunk.size then heap
      else heap.resize target place (newSize + headerSize)

def leastBin (heap : Heap) (least : Nat) : Option Nat :=
  (List.range (Bins.binConfig target).binCount).find? fun bin =>
    decide (least ≤ bin) && !(heap.bins bin).isEmpty

/-- The bin of both searches. -/
def chooseBin (heap : Heap) (minSize : Nat) : Option Nat :=
  (heap.leastBin target (Bins.binFrom target minSize)).or
    (heap.leastBin target (Bins.binOf target minSize))

end Heap

/-- The least offset from `x` on at which data is aligned, above a base of `phase` units. -/
def alignUp (phase align x : Nat) : Nat := (phase + x + (align - 1)) / align * align - phase

/-- What an allocation that ends at `offset` needs granted, given the free space behind it. -/
def endOffset (offset freeSpace : Nat) : Nat :=
  offset + if freeSpace = 0 then 0 else freeChunkHeaderSize

theorem endOffset_le (offset rest : Nat) : endOffset offset rest ≤ offset + rest := by
  rw [endOffset, freeChunkHeaderSize]
  split <;> omega

def cutOf (phase place chunkSize align requestedSize : Nat) : Cut :=
  let dataOffset := alignUp phase align (place + headerSize)
  let headerOffset := dataOffset - headerSize
  let freeSpaceLhs := headerOffset - place
  let freeSpaceRhs := chunkSize - requestedSize - freeSpaceLhs - headerSize
  { dataOffset, headerOffset, freeSpaceLhs, freeSpaceRhs
    endOffset := endOffset (dataOffset + requestedSize) freeSpaceRhs }

/-- The free chunk that an allocation is cut from. -/
structure Fit where
  bin : Nat
  before : List Chunk
  chunkSize : Nat
  after : List Chunk
  cut : Cut

def Fit.place (fit : Fit) : Nat := span Chunk.size fit.before

def Fit.gap (bins : Nat → List Nat) (fit : Fit) : Gap :=
  { before := fit.before, size := fit.chunkSize, after := fit.after
    bins := removeFree bins fit.bin fit.place }

def Fit.carved (bins : Nat → List Nat) (requestedSize : Nat) (fit : Fit) : Gap :=
  ((fit.gap bins).placeFree target fit.cut.freeSpaceLhs).place target
    ⟨requestedSize + headerSize, true⟩

namespace Heap

def minSize (align requestedSize : Nat) : Nat := requestedSize + headerSize + (align - 1)

def chooseFit (phase align requestedSize : Nat) (heap : Heap) : Option Fit :=
  let minSize := minSize align requestedSize
  if minSize > maxAllocationSize then none
  else
    match heap.chooseBin target minSize with
    | none => none
    | some bin =>
        match (heap.bins bin).head? with
        | none => none
        | some place =>
            match splitAt Chunk.size place heap.chunks with
            | none => none
            | some (before, chunk, after) =>
                if chunk.size < minSize then none
                else
                  some { bin, before, chunkSize := chunk.size, after
                         cut := cutOf phase place chunk.size align requestedSize }

def allocate (fit : Fit) (requestedSize : Nat) (heap : Heap) : Heap :=
  ((fit.carved target heap.bins requestedSize).fill target).heap
    (max heap.allocatedSpace fit.cut.endOffset)

/-- What `grow_inplace` needs granted, the usable size it reports and the heap after
it, if it can grow. -/
def growth (place newSize : Nat) (heap : Heap) : Option (Nat × Nat × Heap) :=
  match splitAt Chunk.size place heap.chunks with
  | none => none
  | some (_, chunk, after) =>
      let newSize := newSize + headerSize
      if newSize ≥ 2 ^ sizeBits then none
      else if chunk.size ≥ newSize then some (0, chunk.size - headerSize, heap)
      else
        match after with
        | ⟨next, false⟩ :: _ =>
            if chunk.size + next < newSize then none
            else
              let need := endOffset (place + newSize) (chunk.size + next - newSize)
              some (need, newSize - headerSize, (heap.expand need).resize target place newSize)
        | _ => none

end Heap

end Picoalloc
