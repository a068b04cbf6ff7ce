import Mathlib

/-!
Byte memories with little-endian words. A word access touches exactly the bytes
of its range: reading back what was written gives the value modulo the width,
and a disjoint access does not see the write.
-/

namespace Picoalloc.ByteMemory

abbrev Memory := Nat → UInt8

def readWord (memory : Memory) (address : Nat) : Nat → Nat
  | 0 => 0
  | length + 1 => (memory address).toNat + 256 * readWord memory (address + 1) length

def writeWord (memory : Memory) (address : Nat) : Nat → Nat → Memory
  | 0, _ => memory
  | length + 1, value =>
      writeWord (Function.update memory address (UInt8.ofNat value)) (address + 1) length (value / 256)

def fill (memory : Memory) (address length : Nat) (byte : UInt8) : Memory := fun place =>
  if address ≤ place ∧ place < address + length then byte else memory place

def copy (memory : Memory) (source destination length : Nat) : Memory := fun place =>
  if destination ≤ place ∧ place < destination + length then
    memory (source + (place - destination)) else memory place

theorem writeWord_outside (memory : Memory) (address length value place : Nat)
    (outside : place < address ∨ address + length ≤ place) :
    writeWord memory address length value place = memory place := by
  induction length generalizing memory address value with
  | zero => rfl
  | succ length ih =>
      have different : place ≠ address := by omega
      rw [writeWord, ih _ _ _ (by omega), Function.update_of_ne different]

theorem readWord_congr {memory memory' : Memory} {address length : Nat}
    (same : ∀ place, address ≤ place → place < address + length →
      memory' place = memory place) :
    readWord memory' address length = readWord memory address length := by
  induction length generalizing address with
  | zero => rfl
  | succ length ih =>
      rw [readWord, readWord, same address (Nat.le_refl _) (by omega),
        ih (fun place low high => same place (by omega) (by omega))]

theorem readWord_writeWord_disjoint (memory : Memory) (value : Nat)
    {address length address' length' : Nat}
    (disjoint : address' + length' ≤ address ∨ address + length ≤ address') :
    readWord (writeWord memory address length value) address' length' =
      readWord memory address' length' :=
  readWord_congr fun place _ _ => writeWord_outside memory address length value place (by omega)

theorem readWord_writeWord (memory : Memory) (address length value : Nat) :
    readWord (writeWord memory address length value) address length = value % 256 ^ length := by
  induction length generalizing memory address value with
  | zero => simp [readWord, Nat.mod_one]
  | succ length ih =>
      rw [writeWord, readWord, ih, writeWord_outside _ _ _ _ _ (Or.inl (Nat.lt_succ_self _)),
        Function.update_self, Nat.pow_succ', Nat.mod_mul]
      simp

theorem readWord_written {memory : Memory} {address length value : Nat}
    (fits : value < 256 ^ length) :
    readWord (writeWord memory address length value) address length = value := by
  rw [readWord_writeWord, Nat.mod_eq_of_lt fits]

theorem fill_outside (memory : Memory) (address length place : Nat) (byte : UInt8)
    (outside : place < address ∨ address + length ≤ place) :
    fill memory address length byte place = memory place := by
  simp only [fill, ite_eq_right_iff]
  omega

theorem copy_outside (memory : Memory) (source destination length place : Nat)
    (outside : place < destination ∨ destination + length ≤ place) :
    copy memory source destination length place = memory place := by
  simp only [copy, ite_eq_right_iff]
  omega

theorem copy_inside (memory : Memory) (source destination length index : Nat)
    (inside : index < length) :
    copy memory source destination length (destination + index) = memory (source + index) := by
  simp [copy, inside]

def slice (memory : Memory) (address length : Nat) : List UInt8 :=
  (List.range length).map fun index => memory (address + index)

section Slices

variable {memory memory' : Memory} {address address' length length' index : Nat}

@[simp] theorem slice_length (memory : Memory) (address length : Nat) :
    (slice memory address length).length = length := by
  simp [slice]

@[simp] theorem slice_getElem (inside : index < (slice memory address length).length) :
    (slice memory address length)[index] = memory (address + index) := by
  simp [slice]

theorem slice_congr
    (same : ∀ index < length, memory' (address' + index) = memory (address + index)) :
    slice memory' address' length = slice memory address length := by
  apply List.ext_getElem
  · simp
  · intro index inside inside'
    simp only [slice_getElem]
    exact same index (by simpa using inside)

theorem slice_take (memory : Memory) (address length length' : Nat) :
    (slice memory address length).take length' = slice memory address (min length' length) := by
  apply List.ext_getElem
  · simp
  · intro index inside inside'
    simp only [List.getElem_take, slice_getElem]

theorem slice_append (longer : length ≤ length')
    (same : ∀ index < length, memory' (address + index) = memory (address + index)) :
    ∃ more, slice memory' address length' = slice memory address length ++ more := by
  have begins : (slice memory' address length').take length = slice memory address length := by
    rw [slice_take, Nat.min_eq_left longer]
    exact slice_congr same
  refine ⟨(slice memory' address length').drop length, ?_⟩
  rw [← begins, List.take_append_drop]

theorem slice_update (byte : UInt8) :
    slice (Function.update memory (address + index) byte) address length =
      (slice memory address length).set index byte := by
  apply List.ext_getElem
  · simp
  · intro place inside inside'
    rw [slice_getElem, List.getElem_set, slice_getElem]
    by_cases same : index = place
    · rw [if_pos same, same, Function.update_self]
    · rw [if_neg same]
      exact Function.update_of_ne (by omega) _ _

theorem mem_slice {byte : UInt8} :
    byte ∈ slice memory address length ↔ ∃ index < length, memory (address + index) = byte := by
  simp [slice]

end Slices

end Picoalloc.ByteMemory
