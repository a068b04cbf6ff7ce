import Picoalloc.Allocator

/-!
Header fields by unit offset. `view` reads the memory as an array of headers and
`put` writes one field of one header; the primitive accesses of the model, on a
pointer to a granted unit, are exactly these.
-/

namespace Picoalloc
open CheckedMachine ByteMemory

variable {build : Build} {σ : Type}

def State.unit {width : Nat} (s : State width σ) (place : Nat) : Nat := s.baseAddress + 32 * place

def view (s : AllocatorState build σ) (field : Field) (place : Nat) : Nat :=
  readWord s.memory (s.unit place + field.offset build.target) (field.length build.target)

def put (s : AllocatorState build σ) (field : Field) (place value : Nat) :
    AllocatorState build σ :=
  { s with
    memory := writeWord s.memory (s.unit place + field.offset build.target)
      (field.length build.target) value }

def Requests (total : Nat) : List Event → Prop
  | [] => True
  | .expandMemoryUntil base size _ :: rest =>
      granted base rest < size ∧ size ≤ total ∧ Requests total rest
  | _ :: rest => Requests total rest

/-- What an initialized heap of `total` units stands on: a base that is not null,
aligned and does not wrap, and an allocated space that is what was granted. -/
structure Placed (total : Nat) (s : AllocatorState build σ) : Prop where
  nonnull : 0 < s.baseAddress
  aligned : s.baseAddress % 32 = 0
  inside : s.baseAddress + 32 * total < 2 ^ build.target.addressBits
  small : total < unitLimit
  granted_eq : granted s.baseAddress s.trace = s.allocatedSpace
  within : s.allocatedSpace ≤ total
  requests : Requests total s.trace

theorem Placed.congr {total : Nat} {s s' : AllocatorState build σ} (placed : Placed total s)
    (base : s'.baseAddress = s.baseAddress) (space : s'.allocatedSpace = s.allocatedSpace)
    (trace : s'.trace = s.trace) : Placed total s' where
  nonnull := base ▸ placed.nonnull
  aligned := base ▸ placed.aligned
  inside := base ▸ placed.inside
  small := placed.small
  granted_eq := by rw [base, space, trace]; exact placed.granted_eq
  within := space ▸ placed.within
  requests := trace ▸ placed.requests

/-- What changed between two states is at most the free lists, the mask and the
bytes of the touched units. -/
structure Frame (touched : Nat → Prop) (s s' : AllocatorState build σ) : Prop where
  allocatedSpace : s'.allocatedSpace = s.allocatedSpace
  baseAddress : s'.baseAddress = s.baseAddress
  env : s'.env = s.env
  trace : s'.trace = s.trace
  payloadWrites : s'.payloadWrites = s.payloadWrites
  bytes : ∀ a, s'.memory a ≠ s.memory a →
    ∃ place, touched place ∧ s.unit place ≤ a ∧ a < s.unit place + 32

section Fields

variable (s : AllocatorState build σ) (field field' : Field) (place value : Nat)

theorem field_fits (target : Target) : field.offset target + field.length target ≤ 32 := by
  cases field <;> cases target <;> decide

theorem field_disjoint {field field' : Field} (target : Target) (different : field ≠ field') :
    field.offset target + field.length target ≤ field'.offset target ∨
      field'.offset target + field'.length target ≤ field.offset target := by
  cases field <;> cases field' <;> cases target <;> first | contradiction | decide

@[simp] theorem put_unit (other : Nat) : (put s field place value).unit other = s.unit other := rfl
@[simp] theorem put_allocatedSpace :
    (put s field place value).allocatedSpace = s.allocatedSpace := rfl
@[simp] theorem put_baseAddress : (put s field place value).baseAddress = s.baseAddress := rfl
@[simp] theorem put_firstInFreeList :
    (put s field place value).firstInFreeList = s.firstInFreeList := rfl
@[simp] theorem put_mask : (put s field place value).freeListsWithUnallocatedMemory =
    s.freeListsWithUnallocatedMemory := rfl

variable {field field'}

theorem view_put_same {value : Nat} (fits : value < 256 ^ field.length build.target) :
    view (put s field place value) field = Function.update (view s field) place value := by
  funext other
  by_cases same : other = place
  · subst same
    rw [Function.update_self]
    exact readWord_written fits
  · rw [Function.update_of_ne same]
    have fit := field_fits field build.target
    refine readWord_writeWord_disjoint _ _ ?_
    simp only [State.unit, put] at *
    omega

theorem view_put_other (different : field ≠ field') :
    view (put s field place value) field' = view s field' := by
  funext other
  have apart := field_disjoint build.target different
  have fit := field_fits field build.target
  have fit' := field_fits field' build.target
  refine readWord_writeWord_disjoint _ _ ?_
  simp only [State.unit, put] at *
  omega

end Fields

namespace Frame

variable {touched touched' : Nat → Prop} {s s' s'' : AllocatorState build σ}

theorem unit (frame : Frame touched s s') (place : Nat) : s'.unit place = s.unit place := by
  rw [State.unit, State.unit, frame.baseAddress]

theorem refl (touched : Nat → Prop) (s : AllocatorState build σ) : Frame touched s s :=
  ⟨rfl, rfl, rfl, rfl, rfl, fun _ changed => absurd rfl changed⟩

theorem mono (wider : ∀ place, touched place → touched' place) (frame : Frame touched s s') :
    Frame touched' s s' :=
  { frame with
    bytes := fun a changed => by
      obtain ⟨place, here, low, high⟩ := frame.bytes a changed
      exact ⟨place, wider place here, low, high⟩ }

theorem trans (first : Frame touched s s') (second : Frame touched s' s'') :
    Frame touched s s'' where
  allocatedSpace := second.allocatedSpace.trans first.allocatedSpace
  baseAddress := second.baseAddress.trans first.baseAddress
  env := second.env.trans first.env
  trace := second.trace.trans first.trace
  payloadWrites := second.payloadWrites.trans first.payloadWrites
  bytes a changed := by
    by_cases kept : s'.memory a = s.memory a
    · rw [← kept] at changed
      obtain ⟨place, here, low, high⟩ := second.bytes a changed
      rw [first.unit] at low high
      exact ⟨place, here, low, high⟩
    · exact first.bytes a kept

theorem put (s : AllocatorState build σ) (field : Field) {place : Nat} (value : Nat)
    (here : touched place) : Frame touched s (Picoalloc.put s field place value) where
  allocatedSpace := rfl
  baseAddress := rfl
  env := rfl
  trace := rfl
  payloadWrites := rfl
  bytes a changed := by
    have fit := field_fits field build.target
    refine ⟨place, here, ?_⟩
    by_contra outside
    exact changed (writeWord_outside _ _ _ _ _ (by omega))

theorem placed {total : Nat} (frame : Frame touched s s') (placed : Placed total s) :
    Placed total s' :=
  placed.congr frame.baseAddress frame.allocatedSpace frame.trace

theorem kept (frame : Frame touched s s') {a : Nat}
    (outside : ∀ place, touched place → a < s.unit place ∨ s.unit place + 32 ≤ a) :
    s'.memory a = s.memory a := by
  by_contra changed
  obtain ⟨place, here, low, high⟩ := frame.bytes a changed
  have := outside place here
  omega

end Frame

section Access

variable {total place : Nat} {s : AllocatorState build σ} (placed : Placed total s)
include placed

omit placed in
theorem unit_lt {v w : Nat} : s.unit v < s.unit w ↔ v < w := by
  simp only [State.unit]
  omega

theorem unit_nonnull (v : Nat) : Pointer.isNull (s.unit v) = false := by
  have := placed.nonnull
  simp only [Pointer.isNull, State.unit, beq_eq_false_iff_ne]
  omega

omit placed in
theorem unit_inj {v w : Nat} : s.unit v = s.unit w ↔ v = w := by
  simp only [State.unit]
  omega

theorem mapped_unit (inside : place < s.allocatedSpace) {offset length : Nat}
    (fits : offset + length ≤ 32) : s.mapped (s.unit place + offset) length = true := by
  simp only [State.mapped, State.unit, placed.granted_eq, Bool.and_eq_true, decide_eq_true_eq]
  exact ⟨decide_eq_true (by omega), by omega⟩

theorem mapped_units {length : Nat} (inside : place + length ≤ s.allocatedSpace) :
    s.mapped (s.unit place) (32 * length) = true := by
  simp only [State.mapped, State.unit, placed.granted_eq, Bool.and_eq_true, decide_eq_true_eq]
  exact ⟨decide_eq_true (by omega), by omega⟩

theorem load_ok (inside : place < s.allocatedSpace) (field : Field) :
    load build (s.unit place) field s = .ok (view s field place, s) := by
  simp [load, unit_nonnull placed, mapped_unit placed inside (field_fits field build.target), view]

theorem store_ok (inside : place < s.allocatedSpace) (field : Field) (value : Nat) :
    store build (s.unit place) field value s = .ok ((), put s field place value) := by
  simp [store, unit_nonnull placed, mapped_unit placed inside (field_fits field build.target), put]

theorem add_units (v offset : Nat) (inside : v + offset ≤ total) :
    Pointer.uncheckedAdd build.target (s.unit v) offset = s.unit (v + offset) := by
  have bound := placed.inside
  have small := placed.small
  rw [pointer_add (by omega) (by simp only [State.unit]; omega)]
  simp only [State.unit]
  omega

theorem sub_units (v offset : Nat) (inside : v ≤ total) (order : offset ≤ v) :
    Pointer.uncheckedSub build.target (s.unit v) offset = s.unit (v - offset) := by
  have bound := placed.inside
  have small := placed.small
  rw [pointer_sub (by omega) (by simp only [State.unit]; omega) (by simp only [State.unit]; omega)]
  simp only [State.unit]
  omega

theorem base_add_units {offset : Nat} (inside : offset ≤ total) :
    Pointer.uncheckedAdd build.target s.baseAddress offset = s.unit offset := by
  have at_zero := add_units placed 0 offset (by omega)
  simpa [State.unit] using at_zero

theorem offset_of_unit {v : Nat} (inside : v ≤ total) :
    Size.fromPointerAndBaseUnchecked build (s.unit v) s.baseAddress = .ok v :=
  fromPointerAndBase_ok (by
    have small := placed.small
    simp only [unitLimit] at small
    omega)

theorem endOfAddressSpace_ok {E : Env σ} (constant : ∀ e, E.totalSpace e = total) :
    endOfAddressSpace build E s = .ok (s.unit total, s) := by
  simp only [endOfAddressSpace]
  rw [bind_ok (get_apply s), constant, base_add_units placed (Nat.le_refl _)]
  rfl

theorem paranoidCheckAccess_ok (inside : place < s.allocatedSpace) {bytes : Nat}
    (fits : bytes ≤ 32) : paranoidCheckAccess build (s.unit place) bytes s = .ok ((), s) := by
  by_cases paranoid : build.paranoid = true
  · have bound := placed.inside
    have small := placed.small
    have within := placed.within
    have offset : (2 ^ build.target.addressBits + s.unit place - s.baseAddress) %
        2 ^ build.target.addressBits = 32 * place := by
      rw [Nat.add_sub_assoc (by simp only [State.unit]; omega), Nat.add_mod_left]
      simp only [State.unit, Nat.add_sub_cancel_left]
      exact Nat.mod_eq_of_lt (by omega)
    have reach : (32 * place + bytes) % 2 ^ build.target.addressBits = 32 * place + bytes :=
      Nat.mod_eq_of_lt (by have := placed.nonnull; omega)
    have limit : Size.bytes s.allocatedSpace = 32 * s.allocatedSpace := bytes_eq (by omega)
    simp only [paranoidCheckAccess, paranoid, ↓reduceIte, unit_nonnull placed]
    refine (bind_ok (show assertTrue build (!false) s = .ok ((), s) from rfl)).trans ?_
    rw [bind_ok (get_apply s)]
    simp only [offset, reach, limit, assertTrue]
    rw [if_pos (by simp only [decide_eq_true_eq]; omega)]
    rfl
  · simp [paranoidCheckAccess, paranoid, pure_apply]

end Access

section Checks

variable {s : AllocatorState build σ}

theorem assertTrue_ok {condition : Bool} (holds : condition = true) :
    assertTrue build condition s = .ok ((), s) := by
  simp [assertTrue, holds, pure_apply]

theorem paranoidAssert_ok {condition : Bool} (holds : condition = true) :
    paranoidAssert build condition s = .ok ((), s) := by
  rw [paranoidAssert]
  split
  · exact assertTrue_ok holds
  · rfl

theorem sizeToBinRoundDown_ok (size : Nat) : sizeToBinRoundDown build size s =
    .ok (BitMask.index build.target.maskBits (Bins.binOf build.target size), s) := by
  rw [sizeToBinRoundDown, bind_ok (lift_ok (Bins.toBinIndex_ok _ _) s)]
  rfl

theorem sizeToBinRoundUp_ok (size : Nat) : sizeToBinRoundUp build size s =
    .ok (BitMask.index build.target.maskBits (Bins.binFrom build.target size), s) := by
  rw [sizeToBinRoundUp, bind_ok (lift_ok (Bins.toBinIndex_ok _ _) s)]
  rfl

end Checks

end Picoalloc
