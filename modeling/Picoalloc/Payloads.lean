import Picoalloc.Initialization

/-!
Payload bytes. A heap does not depend on the bytes inside its allocated chunks, so
it survives writes there; and every operation keeps the payloads of the other
chunks and the bytes that are not granted yet.
-/

namespace Picoalloc
open CheckedMachine ByteMemory IntrusiveLists Tilings

variable {build : Build} {σ : Type} {E : Env σ} {total : Nat} {s s' s'' : AllocatorState build σ}

structure Keeps (kept : Nat → Nat → Prop) (s s' : AllocatorState build σ) : Prop where
  baseAddress : s'.baseAddress = s.baseAddress
  grown : s.allocatedSpace ≤ s'.allocatedSpace
  payload : ∀ place size a, kept place size → s.unit (place + headerSize) ≤ a →
    a < s.unit (place + size) → s'.memory a = s.memory a
  beyond : ∀ a, s.unit s'.allocatedSpace ≤ a → s'.memory a = s.memory a

structure Overwritten (place size : Nat) (s s' : AllocatorState build σ) : Prop where
  allocatedSpace : s'.allocatedSpace = s.allocatedSpace
  baseAddress : s'.baseAddress = s.baseAddress
  mask : s'.freeListsWithUnallocatedMemory = s.freeListsWithUnallocatedMemory
  first : s'.firstInFreeList = s.firstInFreeList
  env : s'.env = s.env
  trace : s'.trace = s.trace
  bytes : ∀ a, s'.memory a ≠ s.memory a →
    s.unit (place + headerSize) ≤ a ∧ a < s.unit (place + size)

section Keeping

variable {kept kept' : Nat → Nat → Prop}

theorem Keeps.refl (kept : Nat → Nat → Prop) (s : AllocatorState build σ) : Keeps kept s s :=
  ⟨rfl, Nat.le_refl _, fun _ _ _ _ _ _ => rfl, fun _ _ => rfl⟩

theorem Keeps.unit (keeps : Keeps kept s s') (place : Nat) : s'.unit place = s.unit place := by
  rw [State.unit, State.unit, keeps.baseAddress]

theorem Keeps.mono (fewer : ∀ place size, kept place size → ∃ wider ≥ size, kept' place wider)
    (keeps : Keeps kept' s s') : Keeps kept s s' :=
  { keeps with
    payload := fun place size a here low high => by
      obtain ⟨wider, order, there⟩ := fewer place size here
      refine keeps.payload place wider a there low ?_
      simp only [State.unit] at *
      omega }

theorem Keeps.trans (first : Keeps kept s s') (second : Keeps kept s' s'') : Keeps kept s s'' where
  baseAddress := second.baseAddress.trans first.baseAddress
  grown := first.grown.trans second.grown
  payload place size a here low high := by
    have later := second.payload place size a here
    rw [first.unit, first.unit] at later
    rw [later low high, first.payload place size a here low high]
  beyond a behind := by
    have later := second.beyond a
    rw [first.unit] at later
    rw [later behind, first.beyond a]
    have order := second.grown
    simp only [State.unit] at *
    omega

theorem Frame.keeps {here : Nat → Chunk → Prop} (frame : Frame (Outside s.allocatedSpace here) s s') :
    Keeps (fun place size => here place ⟨size, true⟩) s s' where
  baseAddress := frame.baseAddress
  grown := frame.allocatedSpace.ge
  payload place size a at' low high := by
    refine frame.kept fun unit outside => ?_
    have apart := outside.2 place size at'
    simp only [State.unit, headerSize] at *
    omega
  beyond a behind := by
    rw [frame.allocatedSpace] at behind
    refine frame.kept fun unit outside => ?_
    have inside := outside.1
    simp only [State.unit] at *
    omega

theorem ask_keeps (kept : Nat → Nat → Prop) (E : Env σ) (s : AllocatorState build σ) (need : Nat) :
    Keeps kept s (s.ask E need).2 where
  baseAddress := ask_baseAddress E s need
  grown := by
    rw [ask_allocatedSpace]
    split <;> omega
  payload _ _ _ _ _ _ := by rw [ask_memory]
  beyond _ _ := by rw [ask_memory]

end Keeping

section Chunks

variable {heap : Heap} {place size : Nat}

theorem view_kept {field : Field} {unit : Nat} (base : s'.baseAddress = s.baseAddress)
    (same : ∀ a, s.unit unit ≤ a → a < s.unit unit + 32 → s'.memory a = s.memory a) :
    view s' field unit = view s field unit := by
  have fit := field_fits field build.target
  rw [view, view, State.unit, base, ← State.unit]
  exact readWord_congr fun a low high => same a (by omega) (by omega)

theorem Overwritten.unit (written : Overwritten place size s s') (p : Nat) :
    s'.unit p = s.unit p := by
  rw [State.unit, State.unit, written.baseAddress]

theorem Overwritten.header (written : Overwritten place size s s') {p : Nat} {chunk : Chunk}
    (positive : 0 < chunk.size) (here : heap.Allots place size)
    (there : ChunkAt 0 heap.chunks p chunk) (field : Field) : view s' field p = view s field p := by
  refine view_kept written.baseAddress fun a low high => ?_
  by_contra changed
  have inside := written.bytes a changed
  have apart := heap.chunks_apart there here
  simp only [State.unit, headerSize] at *
  omega

/-- A heap survives writes inside an allocated chunk. -/
theorem Represents.overwritten (represents : Represents total s heap)
    (here : heap.Allots place size) (written : Overwritten place size s s') :
    Represents total s' heap := by
  have header : ∀ {p chunk}, ChunkAt 0 heap.chunks p chunk → ∀ field, view s' field p = view s field p :=
    fun there => written.header (represents.valid.positive _ (tileAt_mem there)) here there
  have index := represents.index
  refine ⟨represents.placed.congr written.baseAddress written.allocatedSpace written.trace,
    represents.valid, represents.space.trans written.allocatedSpace.symm,
    ⟨written.mask ▸ index.mask, fun bin small => ?_, fun bin => ?_, index.nodup, index.apart,
      written.allocatedSpace ▸ index.granted⟩, ?_⟩
  · rw [link_congr written.baseAddress, written.first, index.first bin small]
  · rw [link_congr written.baseAddress]
    refine linked_congr (fun p member => ?_) (index.linked bin)
    obtain ⟨free, there, _⟩ := (represents.valid.registered bin p).mp member
    exact ⟨header there _, header there _⟩
  · exact laid_kept (fun p chunk there => ⟨header there _, header there _⟩) represents.tags

theorem Overwritten.keeps (written : Overwritten place size s s') (here : heap.Allots place size)
    (granted : place + size ≤ s.allocatedSpace) :
    Keeps (fun p n => heap.Allots p n ∧ p ≠ place) s s' where
  baseAddress := written.baseAddress
  grown := written.allocatedSpace.ge
  payload p n a other low high := by
    by_contra changed
    have inside := written.bytes a changed
    have apart := heap.chunks_apart other.1 here
    have different := other.2
    simp only [State.unit, headerSize] at *
    omega
  beyond a behind := by
    by_contra changed
    have inside := written.bytes a changed
    rw [written.allocatedSpace] at behind
    simp only [State.unit] at *
    omega

theorem zeroed_overwritten (zeroMemory : Bool) (place size : Nat) (s : AllocatorState build σ) :
    Overwritten place (size + headerSize) s
      (s.zeroed zeroMemory (s.unit (place + headerSize)) (32 * size)) := by
  cases zeroMemory with
  | false => exact ⟨rfl, rfl, rfl, rfl, rfl, rfl, fun _ changed => absurd rfl changed⟩
  | true =>
      refine ⟨rfl, rfl, rfl, rfl, rfl, rfl, fun a changed => ?_⟩
      by_contra outside
      refine changed (fill_outside _ _ _ _ _ ?_)
      simp only [State.unit, headerSize] at *
      omega

end Chunks

end Picoalloc
