import Picoalloc.Size

/-!
Size bins: the floating-point style rounding of `to_bin_index_generic`, the
configuration computed from the mask width, and the bound that keeps every bin
index of an admitted size inside the tables.
-/

namespace Picoalloc.Bins
open CheckedMachine

def leadingZeros (size : Nat) : Nat := if size = 0 then 32 else 31 - Nat.log2 size

def toBinIndexGeneric (checks : Bool) (mantissaBits : Nat) (roundUp : Bool) (size : Nat) :
    Checked Nat := do
  if size = 0 then
    return 0
  let mantissaValue ← shiftLeft checks sizeBits 1 mantissaBits
  if size < mantissaValue then
    -- The first buckets contain only a single element.
    sub checks sizeBits size 1
  else
    let highestBit ← sub checks sizeBits 31 (leadingZeros size)
    let mantissaStartBit ← sub checks sizeBits highestBit mantissaBits
    let exponent ← add checks sizeBits mantissaStartBit 1
    let shifted ← shiftRight checks sizeBits size mantissaStartBit
    let mantissaMask ← sub checks sizeBits mantissaValue 1
    let mantissa := shifted &&& mantissaMask
    if roundUp then
      let lowBit ← shiftLeft checks sizeBits 1 mantissaStartBit
      let lowBitsMask ← sub checks sizeBits lowBit 1
      let mantissa ← if size &&& lowBitsMask ≠ 0 then add checks sizeBits mantissa 1
        else pure mantissa
      let out ← shiftLeft checks sizeBits exponent mantissaBits
      let sum ← add checks sizeBits out mantissa
      sub checks sizeBits sum 1
    else
      let out ← shiftLeft checks sizeBits exponent mantissaBits
      sub checks sizeBits (out ||| mantissa) 1

structure AllocatorBinConfig where
  mantissaBits : Nat
  binCount : Nat
  deriving DecidableEq, Repr

/-- The `try_all!` expansion: the first mantissa width whose bins fit. -/
def tryAll (maxAllocationSize requestedMaxBins : Nat) : List Nat → Checked AllocatorBinConfig
  | [] => .error .panic
  | mantissaBits :: rest => do
      let highestBinIndex ← toBinIndexGeneric true mantissaBits true maxAllocationSize
      if highestBinIndex < requestedMaxBins then
        return { mantissaBits, binCount := highestBinIndex + 1 }
      else
        tryAll maxAllocationSize requestedMaxBins rest

def calculateOptimalBinConfig (maskBits maxAllocationSize requestedMaxBins : Nat) :
    Checked AllocatorBinConfig :=
  let trueMaxBins := maskBits * maskBits
  let requestedMaxBins := if trueMaxBins < requestedMaxBins then trueMaxBins else requestedMaxBins
  tryAll maxAllocationSize requestedMaxBins [8, 7, 6, 5, 4, 3, 2, 1]

/-- `BIN_CONFIG`. A panic in this constant is a compile error. -/
def binConfig (target : Target) : AllocatorBinConfig :=
  match calculateOptimalBinConfig target.maskBits maxAllocationSize maxBins with
  | .ok config => config
  | .error _ => ⟨0, 0⟩

def secondaryLength (maskBits binCount : Nat) : Nat :=
  binCount / maskBits + if binCount % maskBits ≠ 0 then 1 else 0

def clampToMax (size : Nat) : Nat := if size > maxAllocationSize then maxAllocationSize else size

/-- The exact value of `to_bin_index_generic`: a size with `shift` bits below its
mantissa goes to bin `shift * 2 ^ mantissaBits + size / 2 ^ shift - 1`. -/
def binIndex (mantissaBits : Nat) (roundUp : Bool) (size : Nat) : Nat :=
  let shift := Nat.log2 size - mantissaBits
  shift * 2 ^ mantissaBits + size / 2 ^ shift
    + (if roundUp ∧ size % 2 ^ shift ≠ 0 then 1 else 0) - 1

section Values

variable {mantissaBits size : Nat}

theorem leading_bounds (wide : 2 ^ mantissaBits ≤ size) :
    2 ^ mantissaBits ≤ size / 2 ^ (Nat.log2 size - mantissaBits) ∧
      size / 2 ^ (Nat.log2 size - mantissaBits) < 2 * 2 ^ mantissaBits := by
  have nonzero : size ≠ 0 := by have := Nat.two_pow_pos mantissaBits; omega
  have low := Nat.log2_self_le nonzero
  have high := Nat.lt_log2_self (n := size)
  have order : mantissaBits ≤ Nat.log2 size := (Nat.le_log2 nonzero).mpr wide
  have split : Nat.log2 size = mantissaBits + (Nat.log2 size - mantissaBits) := by omega
  rw [Nat.le_div_iff_mul_le (Nat.two_pow_pos _), Nat.div_lt_iff_lt_mul (Nat.two_pow_pos _),
    Nat.mul_assoc, ← Nat.pow_add, ← split, ← Nat.pow_succ']
  exact ⟨low, high⟩

theorem mantissa_eq (wide : 2 ^ mantissaBits ≤ size) :
    (size / 2 ^ (Nat.log2 size - mantissaBits)) &&& (2 ^ mantissaBits - 1) =
      size / 2 ^ (Nat.log2 size - mantissaBits) - 2 ^ mantissaBits := by
  obtain ⟨low, high⟩ := leading_bounds wide
  rw [Nat.and_two_pow_sub_one_eq_mod, Nat.mod_eq_sub_mod low, Nat.mod_eq_of_lt (by omega)]

theorem binIndex_small (roundUp : Bool) (small : size < 2 ^ mantissaBits) :
    binIndex mantissaBits roundUp size = size - 1 := by
  rcases Nat.eq_zero_or_pos size with rfl | positive
  · simp [binIndex]
  · have order : Nat.log2 size < mantissaBits := (Nat.log2_lt (by omega)).mpr small
    simp [binIndex, Nat.sub_eq_zero_of_le order.le, Nat.mod_one]

/-- The code computes `binIndex`, and none of its operations overflows. -/
theorem toBinIndexGeneric_ok (checks roundUp : Bool) (low : 1 ≤ mantissaBits)
    (high : mantissaBits ≤ 8) (fits : size < 2 ^ 32) :
    toBinIndexGeneric checks mantissaBits roundUp size =
      .ok (binIndex mantissaBits roundUp size) := by
  rcases Nat.eq_zero_or_pos size with rfl | positive
  · simp [toBinIndexGeneric, binIndex, pure, Except.pure]
  have narrow : 2 ^ mantissaBits ≤ 2 ^ 8 := Nat.pow_le_pow_right (by decide) high
  have value : shiftLeft checks sizeBits 1 mantissaBits = .ok (2 ^ mantissaBits) := by
    rw [shiftLeft_ok (by simp only [sizeBits]; omega) (by simp only [sizeBits]; omega), Nat.one_mul]
  by_cases small : size < 2 ^ mantissaBits
  · rw [binIndex_small roundUp small]
    simp [toBinIndexGeneric, positive.ne', value, small, sub_ok positive, bind, Except.bind]
  have wide : 2 ^ mantissaBits ≤ size := Nat.le_of_not_lt small
  obtain ⟨above, below⟩ := leading_bounds wide
  have exact := mantissa_eq wide
  have top : Nat.log2 size < 32 := (Nat.log2_lt positive.ne').mpr fits
  have order : mantissaBits ≤ Nat.log2 size := (Nat.le_log2 positive.ne').mpr wide
  -- with the shift below 32 and the mantissa at most 8 bits wide, nothing below overflows
  obtain ⟨shift, shiftEq⟩ : ∃ shift, shift = Nat.log2 size - mantissaBits := ⟨_, rfl⟩
  rw [← shiftEq] at above below exact
  have highest : sub checks sizeBits 31 (leadingZeros size) = .ok (Nat.log2 size) := by
    rw [leadingZeros, if_neg positive.ne', sub_ok (by omega), Nat.sub_sub_self (by omega)]
  have start : sub checks sizeBits (Nat.log2 size) mantissaBits = .ok shift := by
    rw [sub_ok order, shiftEq]
  have bound : (shift + 1) * 2 ^ mantissaBits ≤ 32 * 2 ^ 8 :=
    Nat.mul_le_mul (by omega) narrow
  have exponent : add checks sizeBits shift 1 = .ok (shift + 1) :=
    add_ok (by simp only [sizeBits]; omega)
  have shifted : shiftRight checks sizeBits size shift = .ok (size / 2 ^ shift) :=
    shiftRight_ok (by simp only [sizeBits]; omega)
  have mask : sub checks sizeBits (2 ^ mantissaBits) 1 = .ok (2 ^ mantissaBits - 1) :=
    sub_ok (Nat.two_pow_pos _)
  have out : shiftLeft checks sizeBits (shift + 1) mantissaBits =
      .ok ((shift + 1) * 2 ^ mantissaBits) :=
    shiftLeft_ok (by simp only [sizeBits]; omega) (by simp only [sizeBits]; omega)
  have split : (shift + 1) * 2 ^ mantissaBits = shift * 2 ^ mantissaBits + 2 ^ mantissaBits :=
    Nat.succ_mul _ _
  cases roundUp with
  | false =>
      -- The exponent field and the mantissa share no bits, so the or is a sum.
      have joined : (shift + 1) * 2 ^ mantissaBits ||| (size / 2 ^ shift - 2 ^ mantissaBits) =
          (shift + 1) * 2 ^ mantissaBits + (size / 2 ^ shift - 2 ^ mantissaBits) := by
        rw [Nat.mul_comm, ← Nat.two_pow_add_eq_or_of_lt (by omega)]
      have last : sub checks sizeBits
          ((shift + 1) * 2 ^ mantissaBits + (size / 2 ^ shift - 2 ^ mantissaBits)) 1 =
          .ok (binIndex mantissaBits false size) := by
        rw [sub_ok (by omega), binIndex, ← shiftEq]
        simp only [Bool.false_eq_true, false_and, ↓reduceIte, Except.ok.injEq]
        omega
      simp [toBinIndexGeneric, positive.ne', value, small, highest, start, exponent, shifted, mask,
        out, exact, joined, last, bind, Except.bind]
  | true =>
      have lowSmall : 2 ^ shift < 2 ^ 32 := Nat.pow_lt_pow_right (by decide) (by omega)
      have lowBit : shiftLeft checks sizeBits 1 shift = .ok (2 ^ shift) := by
        rw [shiftLeft_ok (by simp only [sizeBits]; omega)
          (by simp only [sizeBits]; omega), Nat.one_mul]
      have lowMask : sub checks sizeBits (2 ^ shift) 1 = .ok (2 ^ shift - 1) :=
        sub_ok (Nat.two_pow_pos _)
      have carry : add checks sizeBits (size / 2 ^ shift - 2 ^ mantissaBits) 1 =
          .ok (size / 2 ^ shift - 2 ^ mantissaBits + 1) :=
        add_ok (by simp only [sizeBits]; omega)
      have sum : ∀ extra ≤ 1, add checks sizeBits ((shift + 1) * 2 ^ mantissaBits)
          (size / 2 ^ shift - 2 ^ mantissaBits + extra) =
          .ok ((shift + 1) * 2 ^ mantissaBits + (size / 2 ^ shift - 2 ^ mantissaBits + extra)) :=
        fun extra one => add_ok (by simp only [sizeBits]; omega)
      by_cases rest : size % 2 ^ shift = 0
      · have last : sub checks sizeBits
            ((shift + 1) * 2 ^ mantissaBits + (size / 2 ^ shift - 2 ^ mantissaBits)) 1 =
            .ok (binIndex mantissaBits true size) := by
          rw [sub_ok (by omega), binIndex, ← shiftEq]
          simp only [rest, ne_eq, not_true_eq_false, and_false, ↓reduceIte, Except.ok.injEq]
          omega
        have plain := sum 0 (by omega)
        simp only [Nat.add_zero] at plain
        simp [toBinIndexGeneric, positive.ne', value, small, highest, start, exponent, shifted,
          mask, out, exact, lowBit, lowMask, rest, Nat.and_two_pow_sub_one_eq_mod, plain, last,
          bind, Except.bind, pure, Except.pure]
      · have last : sub checks sizeBits
            ((shift + 1) * 2 ^ mantissaBits + (size / 2 ^ shift - 2 ^ mantissaBits + 1)) 1 =
            .ok (binIndex mantissaBits true size) := by
          rw [sub_ok (by omega), binIndex, ← shiftEq]
          simp only [rest, ne_eq, not_false_eq_true, and_self, ↓reduceIte, Except.ok.injEq]
          omega
        simp [toBinIndexGeneric, positive.ne', value, small, highest, start, exponent, shifted,
          mask, out, exact, lowBit, lowMask, rest, Nat.and_two_pow_sub_one_eq_mod, carry, sum 1,
          last, bind, Except.bind]

theorem binIndex_le {top : Nat} (roundUp : Bool) (order : mantissaBits ≤ top)
    (bounded : size ≤ 2 ^ top) :
    binIndex mantissaBits roundUp size ≤ (top - mantissaBits) * 2 ^ mantissaBits
      + 2 ^ mantissaBits - 1 := by
  by_cases small : size < 2 ^ mantissaBits
  · rw [binIndex_small roundUp small]
    omega
  have wide : 2 ^ mantissaBits ≤ size := Nat.le_of_not_lt small
  have nonzero : size ≠ 0 := by have := Nat.two_pow_pos mantissaBits; omega
  rcases Nat.eq_or_lt_of_le bounded with rfl | below
  · have exact : 2 ^ top / 2 ^ (top - mantissaBits) = 2 ^ mantissaBits := by
      rw [Nat.pow_div (by omega) (by decide), Nat.sub_sub_self order]
    have divides : 2 ^ top % 2 ^ (top - mantissaBits) = 0 :=
      Nat.mod_eq_zero_of_dvd (Nat.pow_dvd_pow 2 (by omega))
    simp [binIndex, exact, divides]
  · obtain ⟨_, high⟩ := leading_bounds wide
    have logTop : Nat.log2 size < top := (Nat.log2_lt nonzero).mpr below
    have logLow : mantissaBits ≤ Nat.log2 size := (Nat.le_log2 nonzero).mpr wide
    have scaled : (Nat.log2 size - mantissaBits + 1) * 2 ^ mantissaBits ≤
        (top - mantissaBits) * 2 ^ mantissaBits := Nat.mul_le_mul_right _ (by omega)
    have split : (Nat.log2 size - mantissaBits + 1) * 2 ^ mantissaBits =
        (Nat.log2 size - mantissaBits) * 2 ^ mantissaBits + 2 ^ mantissaBits := Nat.succ_mul _ _
    simp only [binIndex]
    split <;> omega

end Values

section Configuration

variable {target : Target} {size : Nat}

theorem binConfig_eq (target : Target) :
    binConfig target = if target.maskBits = 32 then ⟨5, 672⟩ else ⟨7, 2432⟩ := by
  cases target <;> decide +kernel

theorem mantissaBits_pos (target : Target) : 1 ≤ (binConfig target).mantissaBits := by
  rw [binConfig_eq]
  split <;> decide

theorem mantissaBits_le (target : Target) : (binConfig target).mantissaBits ≤ 8 := by
  rw [binConfig_eq]
  split <;> decide

theorem clampToMax_le (size : Nat) : clampToMax size ≤ 2 ^ 25 := by
  have top : maxAllocationSize = 2 ^ 25 := by decide
  rw [clampToMax]
  split <;> omega

def binOf (target : Target) (size : Nat) : Nat :=
  binIndex (binConfig target).mantissaBits false (clampToMax size)

def binFrom (target : Target) (size : Nat) : Nat :=
  binIndex (binConfig target).mantissaBits true (clampToMax size)

theorem binIndex_lt (roundUp : Bool) :
    binIndex (binConfig target).mantissaBits roundUp (clampToMax size) <
      (binConfig target).binCount := by
  have order : (binConfig target).mantissaBits ≤ 25 := (mantissaBits_le target).trans (by decide)
  refine Nat.lt_of_le_of_lt (binIndex_le roundUp order (clampToMax_le size)) ?_
  rw [binConfig_eq]
  split <;> decide

theorem binOf_lt (target : Target) (size : Nat) : binOf target size < (binConfig target).binCount :=
  binIndex_lt false

theorem binFrom_lt (target : Target) (size : Nat) :
    binFrom target size < (binConfig target).binCount := binIndex_lt true

theorem toBinIndex_ok (checks roundUp : Bool) :
    toBinIndexGeneric checks (binConfig target).mantissaBits roundUp (clampToMax size) =
      .ok (binIndex (binConfig target).mantissaBits roundUp (clampToMax size)) :=
  toBinIndexGeneric_ok checks roundUp (mantissaBits_pos target) (mantissaBits_le target)
    (Nat.lt_of_le_of_lt (clampToMax_le size) (by decide))

theorem binCount_fits (target : Target) :
    (binConfig target).binCount =
        target.maskBits * secondaryLength target.maskBits (binConfig target).binCount ∧
      secondaryLength target.maskBits (binConfig target).binCount < target.maskBits := by
  rw [binConfig_eq]
  cases target <;> decide

end Configuration

end Picoalloc.Bins
