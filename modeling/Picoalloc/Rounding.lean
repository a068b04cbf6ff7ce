import Picoalloc.Bins
import Picoalloc.Foundation.Grids

/-!
The bins as a grid of sizes. `to_bin_index_generic` rounds down to the bin that a
size belongs to and up to the first bin whose sizes are all large enough.
-/

namespace Picoalloc.Bins
open CheckedMachine Grids

/-- The least size of a bin: the index carries an exponent above its mantissa. -/
def binStart (mantissaBits bin : Nat) : Nat :=
  let shift := (bin + 1) / 2 ^ mantissaBits - 1
  (bin + 1 - shift * 2 ^ mantissaBits) * 2 ^ shift

section Encoding

variable {mantissaBits bin size : Nat}

theorem binStart_decodes (mantissaBits bin : Nat) : ∃ shift mantissa,
    bin + 1 = shift * 2 ^ mantissaBits + mantissa ∧
      binStart mantissaBits bin = mantissa * 2 ^ shift ∧ 0 < mantissa ∧
      mantissa < 2 * 2 ^ mantissaBits ∧ (shift = 0 ∨ 2 ^ mantissaBits ≤ mantissa) := by
  have positive := Nat.two_pow_pos mantissaBits
  obtain ⟨exponent, rest, small, split⟩ : ∃ exponent rest, rest < 2 ^ mantissaBits ∧
      bin + 1 = exponent * 2 ^ mantissaBits + rest :=
    ⟨(bin + 1) / 2 ^ mantissaBits, (bin + 1) % 2 ^ mantissaBits, Nat.mod_lt _ positive, by
      rw [Nat.mul_comm, Nat.div_add_mod]⟩
  have quotient : (bin + 1) / 2 ^ mantissaBits = exponent := by
    rw [split, Nat.mul_comm, Nat.mul_add_div positive, Nat.div_eq_of_lt small, Nat.add_zero]
  have shape : bin + 1 = (exponent - 1) * 2 ^ mantissaBits +
      (bin + 1 - (exponent - 1) * 2 ^ mantissaBits) ∧
      0 < bin + 1 - (exponent - 1) * 2 ^ mantissaBits ∧
      bin + 1 - (exponent - 1) * 2 ^ mantissaBits < 2 * 2 ^ mantissaBits ∧
      (exponent - 1 = 0 ∨ 2 ^ mantissaBits ≤ bin + 1 - (exponent - 1) * 2 ^ mantissaBits) := by
    cases exponent with
    | zero =>
        rw [Nat.zero_mul, Nat.zero_add] at split
        rw [Nat.zero_sub, Nat.zero_mul]
        omega
    | succ shift =>
        rw [Nat.succ_mul] at split
        rw [Nat.add_sub_cancel]
        omega
  exact ⟨exponent - 1, _, shape.1, by rw [binStart, quotient], shape.2⟩

theorem size_decodes (mantissaBits : Nat) (positive : 0 < size) : ∃ shift mantissa rest,
    size = mantissa * 2 ^ shift + rest ∧ rest < 2 ^ shift ∧ 0 < mantissa ∧
      mantissa < 2 * 2 ^ mantissaBits ∧ (shift = 0 ∨ 2 ^ mantissaBits ≤ mantissa) ∧
      (∀ roundUp, binIndex mantissaBits roundUp size + 1 = shift * 2 ^ mantissaBits + mantissa +
        if roundUp ∧ rest ≠ 0 then 1 else 0) := by
  refine ⟨Nat.log2 size - mantissaBits, size / 2 ^ (Nat.log2 size - mantissaBits),
    size % 2 ^ (Nat.log2 size - mantissaBits), ?_, Nat.mod_lt _ (Nat.two_pow_pos _), ?_⟩
  · rw [Nat.mul_comm, Nat.div_add_mod]
  have shape : ∀ roundUp, 0 < size / 2 ^ (Nat.log2 size - mantissaBits) →
      binIndex mantissaBits roundUp size + 1 = (Nat.log2 size - mantissaBits) * 2 ^ mantissaBits +
        size / 2 ^ (Nat.log2 size - mantissaBits) +
          if roundUp ∧ size % 2 ^ (Nat.log2 size - mantissaBits) ≠ 0 then 1 else 0 := by
    intro roundUp some_
    simp only [binIndex]
    exact Nat.sub_add_cancel (by omega)
  rcases Nat.lt_or_ge size (2 ^ mantissaBits) with small | wide
  · have order : Nat.log2 size < mantissaBits := (Nat.log2_lt (by omega)).mpr small
    have zero : Nat.log2 size - mantissaBits = 0 := by omega
    rw [zero] at shape ⊢
    rw [Nat.pow_zero, Nat.div_one] at *
    exact ⟨positive, by omega, Or.inl rfl, fun roundUp => shape roundUp positive⟩
  · obtain ⟨above, below⟩ := leading_bounds wide
    have some_ := (Nat.two_pow_pos mantissaBits).trans_le above
    exact ⟨some_, below, Or.inr above, fun roundUp => shape roundUp some_⟩

theorem scaled_lt {width shift shift' mantissa mantissa' : Nat} (order : shift < shift')
    (small : mantissa < 2 * width) (leading : shift' = 0 ∨ width ≤ mantissa') :
    (mantissa + 1) * 2 ^ shift ≤ mantissa' * 2 ^ shift' ∧
      shift * width + mantissa < shift' * width + mantissa' := by
  have wide : width ≤ mantissa' := leading.resolve_left (by omega)
  obtain ⟨extra, rfl⟩ := Nat.exists_eq_add_of_lt order
  constructor
  · calc (mantissa + 1) * 2 ^ shift ≤ 2 * width * 2 ^ shift := Nat.mul_le_mul_right _ small
      _ = width * 2 ^ (shift + 1) := by rw [Nat.pow_succ]; ring
      _ ≤ mantissa' * 2 ^ (shift + extra + 1) :=
          Nat.mul_le_mul wide (Nat.pow_le_pow_right (by decide) (by omega))
  · have scaled := Nat.mul_le_mul_right width (show shift + 1 ≤ shift + extra + 1 by omega)
    rw [Nat.succ_mul] at scaled
    omega

theorem le_down_iff (positive : 0 < size) :
    bin ≤ binIndex mantissaBits false size ↔ binStart mantissaBits bin ≤ size := by
  obtain ⟨shift, mantissa, split, start, -, small, leading⟩ := binStart_decodes mantissaBits bin
  obtain ⟨shift', mantissa', rest, sizeEq, low, -, small', leading', index⟩ :=
    size_decodes mantissaBits positive
  have index := index false
  simp only [Bool.false_eq_true, false_and, ↓reduceIte, Nat.add_zero] at index
  rw [start, ← Nat.add_le_add_iff_right (n := 1), index, split, sizeEq]
  rcases Nat.lt_trichotomy shift shift' with less | rfl | more
  · obtain ⟨sizes, bins⟩ := scaled_lt less small leading'
    rw [Nat.succ_mul] at sizes
    exact iff_of_true bins.le (by have := Nat.two_pow_pos shift; omega)
  · rw [Nat.add_le_add_iff_left]
    constructor
    · intro order
      exact (Nat.mul_le_mul_right _ order).trans (Nat.le_add_right _ _)
    · intro order
      by_contra above
      have scaled := Nat.mul_le_mul_right (2 ^ shift) (Nat.lt_of_not_le above)
      rw [Nat.succ_mul] at scaled
      omega
  · obtain ⟨sizes, bins⟩ := scaled_lt more small' leading
    rw [Nat.succ_mul] at sizes
    exact iff_of_false (by omega) (by omega)

theorem up_le_iff (size : Nat) :
    binIndex mantissaBits true size ≤ bin ↔ size ≤ binStart mantissaBits bin := by
  obtain ⟨shift, mantissa, split, start, some_, small, leading⟩ := binStart_decodes mantissaBits bin
  rcases Nat.eq_zero_or_pos size with rfl | positive
  · exact iff_of_true (by simp [binIndex]) (Nat.zero_le _)
  obtain ⟨shift', mantissa', rest, sizeEq, low, -, small', leading', index⟩ :=
    size_decodes mantissaBits positive
  have index := index true
  simp only [true_and] at index
  rw [start, ← Nat.add_le_add_iff_right (n := 1), index, split, sizeEq]
  rcases Nat.lt_trichotomy shift shift' with less | rfl | more
  · obtain ⟨sizes, bins⟩ := scaled_lt less small leading'
    rw [Nat.succ_mul] at sizes
    exact iff_of_false (by omega) (by have := Nat.two_pow_pos shift; omega)
  · rw [Nat.add_assoc, Nat.add_le_add_iff_left]
    by_cases exact_ : rest = 0
    · simp [exact_]
    · simp only [ne_eq, exact_, not_false_eq_true, ↓reduceIte]
      constructor
      · intro order
        have scaled := Nat.mul_le_mul_right (2 ^ shift) order
        rw [Nat.succ_mul] at scaled
        omega
      · intro order
        by_contra below
        have scaled := Nat.mul_le_mul_right (2 ^ shift) (show mantissa ≤ mantissa' by omega)
        omega
  · obtain ⟨sizes, bins⟩ := scaled_lt more small' leading
    rw [Nat.succ_mul] at sizes
    exact iff_of_true (by split <;> omega) (by omega)

theorem binStart_strictMono (mantissaBits : Nat) : StrictMono (binStart mantissaBits) := by
  refine strictMono_nat_of_lt_succ fun bin => ?_
  obtain ⟨shift, mantissa, split, start, some_, -, -⟩ := binStart_decodes mantissaBits bin
  have positive : 0 < binStart mantissaBits bin := by
    rw [start]
    exact Nat.mul_pos some_ (Nat.two_pow_pos _)
  by_contra above
  have first : binIndex mantissaBits true (binStart mantissaBits bin) ≤ bin :=
    (up_le_iff _).mpr (Nat.le_refl _)
  have next : bin + 1 ≤ binIndex mantissaBits false (binStart mantissaBits bin) :=
    (le_down_iff positive).mpr (Nat.le_of_not_lt above)
  have order : binIndex mantissaBits false (binStart mantissaBits bin) ≤
      binIndex mantissaBits true (binStart mantissaBits bin) := by
    simp only [binIndex, Bool.false_eq_true, false_and, ↓reduceIte]
    omega
  omega

@[simp] theorem binStart_zero (low : 1 ≤ mantissaBits) : binStart mantissaBits 0 = 1 := by
  have wide : 2 ^ 1 ≤ 2 ^ mantissaBits := Nat.pow_le_pow_right (by decide) low
  rw [binStart, Nat.div_eq_of_lt (by omega)]
  simp

/-- The bins and their two roundings. -/
theorem bins_grid (low : 1 ≤ mantissaBits) :
    Grid (binStart mantissaBits) (binIndex mantissaBits false) (binIndex mantissaBits true) where
  increasing := binStart_strictMono mantissaBits
  below size inside bin := le_down_iff (by rw [binStart_zero low] at inside; exact inside)
  above size bin := up_le_iff size

theorem binStart_wider (mantissaBits bin : Nat) :
    binStart (mantissaBits + 1) bin ≤ binStart mantissaBits bin := by
  obtain ⟨shift, mantissa, split, start, -, small, leading⟩ := binStart_decodes (mantissaBits + 1) bin
  obtain ⟨shift', mantissa', split', start', -, small', leading'⟩ := binStart_decodes mantissaBits bin
  rw [start, start']
  rw [Nat.pow_succ] at split small leading
  generalize 2 ^ mantissaBits = width at *
  have scaled : shift * (width * 2) = 2 * shift * width := by ring
  have low : 2 * shift ≤ shift' := by
    by_contra above
    have order := Nat.mul_le_mul_right width (show shift' + 1 ≤ 2 * shift by omega)
    rw [Nat.succ_mul] at order
    omega
  obtain ⟨extra, rfl⟩ := Nat.exists_eq_add_of_le low
  rw [Nat.add_mul] at split'
  -- What the mantissa loses the exponent gains, and at most two steps of it.
  have scaledMantissa : mantissa ≤ mantissa' * 2 ^ (shift + extra) := by
    rcases (show extra = 0 ∨ extra = 1 ∨ extra = 2 ∨ 3 ≤ extra by omega) with rfl | rfl | rfl | more
    · obtain rfl : mantissa = mantissa' := by omega
      exact Nat.le_mul_of_pos_right _ (Nat.two_pow_pos _)
    · have wide : 2 ^ 1 ≤ 2 ^ (shift + 1) := Nat.pow_le_pow_right (by decide) (by omega)
      have product := Nat.mul_le_mul_left mantissa' wide
      omega
    · have wide : 2 ^ 2 ≤ 2 ^ (shift + 2) := Nat.pow_le_pow_right (by decide) (by omega)
      have product := Nat.mul_le_mul_left mantissa' wide
      omega
    · have product := Nat.mul_le_mul_right width more
      omega
  calc mantissa * 2 ^ shift ≤ mantissa' * 2 ^ (shift + extra) * 2 ^ shift :=
        Nat.mul_le_mul_right _ scaledMantissa
    _ = mantissa' * 2 ^ (2 * shift + extra) := by
        rw [Nat.mul_assoc, ← Nat.pow_add]
        congr 2
        omega

theorem binIndex_wider (mantissaBits size : Nat) :
    binIndex mantissaBits true size ≤ binIndex (mantissaBits + 1) true size :=
  (up_le_iff size).mpr (((up_le_iff size).mp (Nat.le_refl _)).trans (binStart_wider _ _))

end Encoding

section Quantization

variable {mantissaBits : Nat}

def Sized (size : Nat) : Prop := 0 < size ∧ size < 2 ^ sizeBits

/-- The sizes that one rounding sends to the bin of `size`. -/
def cell (down : Nat → Nat) (size : Nat) : Set Nat := {x | Sized x ∧ down x = down size}

/-- Two monotone roundings of the sizes, adjoint to each other, whose cells are narrow. -/
structure Quantizes (mantissaBits : Nat) (down up : Nat → Nat) : Prop where
  mono : ∀ m c, Sized m → Sized c → m ≤ c → down m ≤ down c ∧ up m ≤ up c
  between : ∀ m, Sized m → down m ≤ up m ∧ up m ≤ down m + 1
  agree : ∀ m, Sized m → (down m = up m ↔ IsLeast (cell down m) m)
  adjoint : ∀ c, Sized c → ∃ least, IsLeast (cell down c) least ∧
    ∀ m, Sized m → (up m ≤ down c ↔ m ≤ least)
  onto : ∀ c bin, Sized c → bin ≤ down c → ∃ x, Sized x ∧ down x = bin
  narrow : ∀ x y, Sized x → Sized y → down x = down y → x ≤ y → (y - x) * 2 ^ mantissaBits < x
  single : ∀ x y, Sized x → Sized y → down x = down y → x < 2 ^ (mantissaBits + 1) → x = y

theorem cell_decodes {x y : Nat} (somex : 0 < x) (somey : 0 < y)
    (same : binIndex mantissaBits false x = binIndex mantissaBits false y) :
    ∃ shift mantissa restx resty, x = mantissa * 2 ^ shift + restx ∧
      y = mantissa * 2 ^ shift + resty ∧ restx < 2 ^ shift ∧ resty < 2 ^ shift ∧
      (shift = 0 ∨ 2 ^ mantissaBits ≤ mantissa) := by
  obtain ⟨shift, mantissa, restx, xEq, lowx, -, small, leading, index⟩ :=
    size_decodes mantissaBits somex
  obtain ⟨shift', mantissa', resty, yEq, lowy, -, small', leading', index'⟩ :=
    size_decodes mantissaBits somey
  have index := index false
  have index' := index' false
  simp only [Bool.false_eq_true, false_and, ↓reduceIte, Nat.add_zero] at index index'
  rcases Nat.lt_trichotomy shift shift' with less | rfl | more
  · have bins := (scaled_lt less small leading').2
    omega
  · obtain rfl : mantissa = mantissa' := by omega
    exact ⟨shift, mantissa, restx, resty, xEq, yEq, lowx, lowy, leading⟩
  · have bins := (scaled_lt more small' leading).2
    omega

theorem cell_narrow {x y : Nat} (somex : 0 < x) (somey : 0 < y)
    (same : binIndex mantissaBits false x = binIndex mantissaBits false y) :
    (y - x) * 2 ^ mantissaBits < x := by
  obtain ⟨shift, mantissa, restx, resty, rfl, rfl, lowx, lowy, leading⟩ :=
    cell_decodes somex somey same
  rcases leading with rfl | wide
  · obtain rfl : restx = 0 := by omega
    obtain rfl : resty = 0 := by omega
    simpa using somex
  · calc (mantissa * 2 ^ shift + resty - (mantissa * 2 ^ shift + restx)) * 2 ^ mantissaBits
      _ ≤ (2 ^ shift - 1) * 2 ^ mantissaBits := Nat.mul_le_mul_right _ (by omega)
      _ < 2 ^ shift * 2 ^ mantissaBits :=
          Nat.mul_lt_mul_of_pos_right (by omega) (Nat.two_pow_pos _)
      _ ≤ mantissa * 2 ^ shift := by
          rw [Nat.mul_comm]
          exact Nat.mul_le_mul_right _ wide
      _ ≤ mantissa * 2 ^ shift + restx := Nat.le_add_right _ _

theorem cell_single {x y : Nat} (somex : 0 < x) (somey : 0 < y)
    (same : binIndex mantissaBits false x = binIndex mantissaBits false y)
    (small : x < 2 ^ (mantissaBits + 1)) : x = y := by
  obtain ⟨shift, mantissa, restx, resty, rfl, rfl, lowx, lowy, leading⟩ :=
    cell_decodes somex somey same
  obtain rfl : shift = 0 := by
    by_contra deep
    have scaled := Nat.mul_le_mul (leading.resolve_left deep)
      (Nat.pow_le_pow_right (n := 2) (by decide) (Nat.pos_of_ne_zero deep))
    rw [Nat.pow_succ] at small
    omega
  omega

/-- The bin of every size is computed without overflow, and both roundings are adjoint. -/
theorem bins_quantize (low : 1 ≤ mantissaBits) (high : mantissaBits ≤ 8) :
    ∃ down up : Nat → Nat,
      (∀ size, Sized size →
        toBinIndexGeneric true mantissaBits false size = .ok (down size) ∧
          toBinIndexGeneric true mantissaBits true size = .ok (up size)) ∧
      Quantizes mantissaBits down up := by
  have grid := bins_grid low
  have inside : ∀ {size}, Sized size → binStart mantissaBits 0 ≤ size := fun sized => by
    rw [binStart_zero low]
    exact sized.1
  have started : ∀ {c bin}, Sized c → bin ≤ binIndex mantissaBits false c →
      Sized (binStart mantissaBits bin) ∧
        binIndex mantissaBits false (binStart mantissaBits bin) = bin := by
    intro c bin sized order
    have first := grid.increasing.monotone (Nat.zero_le bin)
    rw [binStart_zero low] at first
    exact ⟨⟨first, ((le_down_iff sized.1).mp order).trans_lt sized.2⟩, grid.down_point bin⟩
  have least : ∀ {c}, Sized c → IsLeast (cell (binIndex mantissaBits false) c)
      (binStart mantissaBits (binIndex mantissaBits false c)) := by
    intro c sized
    refine ⟨started sized (Nat.le_refl _), fun x member => ?_⟩
    rw [← member.2]
    exact grid.point_down_le (inside member.1)
  refine ⟨binIndex mantissaBits false, binIndex mantissaBits true, fun size sized =>
    ⟨toBinIndexGeneric_ok true false low high sized.2,
      toBinIndexGeneric_ok true true low high sized.2⟩, ?_⟩
  refine ⟨fun m c sized _ order => ⟨grid.down_mono (inside sized) order, grid.up_mono order⟩,
    fun m sized => ⟨grid.down_le_up (inside sized), grid.up_le_succ_down (inside sized)⟩,
    fun m sized => ?_, fun c sized => ⟨_, least sized, fun m _ => grid.above m _⟩,
    fun c bin sized order => ⟨_, started sized order⟩,
    fun x y sizedx sizedy same _ => cell_narrow sizedx.1 sizedy.1 same,
    fun x y sizedx sizedy same small => cell_single sizedx.1 sizedy.1 same small⟩
  rw [grid.down_eq_up_iff (inside sized)]
  constructor
  · intro onPoint
    have first := least sized
    rwa [← onPoint] at first
  · intro first
    exact first.unique (least sized)

/-- The mantissa width that the crate ships on 64-bit targets. -/
theorem bins_quantize_seven : ∃ down up : Nat → Nat,
    (∀ size, Sized size → toBinIndexGeneric true 7 false size = .ok (down size) ∧
      toBinIndexGeneric true 7 true size = .ok (up size)) ∧ Quantizes 7 down up :=
  bins_quantize (by decide) (by decide)

end Quantization

end Picoalloc.Bins
