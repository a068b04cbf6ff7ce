import Picoalloc.Bins

/-!
The two-level `BitMask` and the set of indices it stands for. Bit `i` of the
primary mask says that word `i` of the secondary masks is not empty; bit `j` of
that word stands for the index `width * i + j`.
-/

namespace Picoalloc
open CheckedMachine

structure BitIndex where
  index : Nat
  primary : Nat
  secondary : Nat
  deriving DecidableEq, Repr

def BitIndex.eq (paranoid : Bool) (index rhs : BitIndex) : Checked Bool :=
  let isEqual := index.index == rhs.index
  if paranoid && isEqual != (index.primary == rhs.primary) then .error .panic
  else if paranoid && isEqual != (index.secondary == rhs.secondary) then .error .panic
  else .ok isEqual

/-- `u32::MAX`, which stands for "no bit". -/
def noBit : Nat := 2 ^ 32 - 1

/-- An index past the end panics in a checked build and is undefined otherwise. -/
def getUnchecked {α : Type} (slice : List α) (index : Nat) : Checked α :=
  match slice[index]? with
  | some item => .ok item
  | none => .error .outOfBounds

structure BitMask (width : Nat) where
  primaryMask : BitVec width
  secondaryMasks : List (BitVec width)
  deriving DecidableEq, Repr

namespace BitMask

variable {width : Nat}

def primaryBinShift (width : Nat) : Nat := Nat.log2 width
def secondaryBinMask (width : Nat) : Nat := (1 <<< primaryBinShift width) - 1

def new (width length : Nat) : BitMask width :=
  { primaryMask := 0, secondaryMasks := List.replicate length 0 }

def index (width index : Nat) : BitIndex :=
  { index, primary := index >>> primaryBinShift width,
    secondary := index &&& secondaryBinMask width }

def set (checks : Bool) (mask : BitMask width) (index : BitIndex) : Checked (BitMask width) := do
  let word ← getUnchecked mask.secondaryMasks index.primary
  let secondaryBit ← bit checks width index.secondary
  let primaryBit ← bit checks width index.primary
  return { primaryMask := mask.primaryMask ||| primaryBit,
           secondaryMasks := mask.secondaryMasks.set index.primary (word ||| secondaryBit) }

def unset (checks : Bool) (mask : BitMask width) (index : BitIndex) : Checked (BitMask width) := do
  let word ← getUnchecked mask.secondaryMasks index.primary
  let secondaryBit ← bit checks width index.secondary
  let word := word &&& ~~~secondaryBit
  let secondaryMasks := mask.secondaryMasks.set index.primary word
  if word = 0 then
    let primaryBit ← bit checks width index.primary
    return { primaryMask := mask.primaryMask &&& ~~~primaryBit, secondaryMasks }
  else
    return { primaryMask := mask.primaryMask, secondaryMasks }

def lowestSetBitAfter (checks : Bool) (value : BitVec width) (bitIndex : Nat) : Checked Nat := do
  let lowest ← bit checks width bitIndex
  let maskBefore := lowest - 1
  let bitsAfter := value &&& ~~~maskBefore
  return if bitsAfter = 0 then noBit else bitsAfter.ctz.toNat

def joinIndex (width primary secondary : Nat) : BitIndex :=
  { index := (primary <<< primaryBinShift width) ||| secondary, primary, secondary }

def findFirst (checks : Bool) (mask : BitMask width) (minIndex : BitIndex) :
    Checked (Option BitIndex) := do
  let primaryBit ← bit checks width minIndex.primary
  let secondary ← if mask.primaryMask &&& primaryBit ≠ 0 then do
      let word ← getUnchecked mask.secondaryMasks minIndex.primary
      lowestSetBitAfter checks word minIndex.secondary
    else pure noBit
  if secondary = noBit then
    let next ← add checks sizeBits minIndex.primary 1
    let primary ← lowestSetBitAfter checks mask.primaryMask next
    if primary = noBit then
      return none
    let word ← getUnchecked mask.secondaryMasks primary
    return some (joinIndex width primary word.ctz.toNat)
  else
    return some (joinIndex width minIndex.primary secondary)

/-- The mask represents the set `members` of indices below `width * length`. -/
structure Represents (length : Nat) (mask : BitMask width) (members : Nat → Prop) : Prop where
  length_eq : mask.secondaryMasks.length = length
  word : ∀ i < length, ∃ word, mask.secondaryMasks[i]? = some word ∧
    ∀ j < width, word.getLsbD j = true ↔ members (width * i + j)
  primary : ∀ i < width, mask.primaryMask.getLsbD i = true ↔ ∃ j < width, members (width * i + j)
  inside : ∀ x, members x → x < width * length

section Words

theorem getLsbD_bit {amount place : Nat} (inside : place < width) :
    (BitVec.ofNat width 1 <<< amount).getLsbD place = decide (place = amount) := by
  rw [BitVec.getLsbD_shiftLeft, BitVec.getLsbD_one]
  simp only [inside, decide_true, Bool.true_and]
  rw [Bool.eq_iff_iff]
  simp only [Bool.and_eq_true, Bool.not_eq_true', decide_eq_false_iff_not, decide_eq_true_eq]
  omega

theorem getLsbD_below {amount place : Nat} (small : amount < width) (inside : place < width) :
    (BitVec.ofNat width 1 <<< amount - BitVec.ofNat width 1).getLsbD place =
      decide (place < amount) := by
  have power : 2 ^ amount < 2 ^ width := Nat.pow_lt_pow_right (by decide) small
  have one : 1 < 2 ^ width := Nat.one_lt_two_pow (by omega)
  have value : (BitVec.ofNat width 1 <<< amount - BitVec.ofNat width 1).toNat = 2 ^ amount - 1 := by
    have positive := Nat.two_pow_pos amount
    rw [BitVec.toNat_sub, BitVec.toNat_shiftLeft]
    simp only [BitVec.toNat_ofNat, Nat.mod_eq_of_lt one, Nat.shiftLeft_eq, Nat.one_mul,
      Nat.mod_eq_of_lt power]
    rw [show 2 ^ width - 1 + 2 ^ amount = 2 ^ width + (2 ^ amount - 1) by omega,
      Nat.add_mod_left, Nat.mod_eq_of_lt (by omega)]
  rw [BitVec.getLsbD, value, Nat.testBit_two_pow_sub_one]

def LowestFrom (value : BitVec width) (from_ found : Nat) : Prop :=
  (found = noBit ∧ ∀ j < width, from_ ≤ j → value.getLsbD j = false) ∨
    (found < width ∧ from_ ≤ found ∧ value.getLsbD found = true ∧
      ∀ j < found, from_ ≤ j → value.getLsbD j = false)

theorem lowestSetBitAfter_ok (checks : Bool) (value : BitVec width) (bitIndex : Nat)
    (inside : bitIndex < width) :
    ∃ found, lowestSetBitAfter checks value bitIndex = .ok found ∧
      LowestFrom value bitIndex found := by
  let bitsAfter := value &&& ~~~(BitVec.ofNat width 1 <<< bitIndex - BitVec.ofNat width 1)
  have bits : ∀ j < width, bitsAfter.getLsbD j = (value.getLsbD j && decide (bitIndex ≤ j)) := by
    intro j below
    simp only [bitsAfter, BitVec.getLsbD_and, BitVec.getLsbD_not, getLsbD_below inside below,
      below, decide_true, Bool.true_and]
    congr 1
    rw [Bool.eq_iff_iff]
    simp
  have run : lowestSetBitAfter checks value bitIndex =
      .ok (if bitsAfter = 0 then noBit else bitsAfter.ctz.toNat) := by
    simp [lowestSetBitAfter, bit_ok inside, bitsAfter, bind, Except.bind, pure, Except.pure]
  refine ⟨_, run, ?_⟩
  by_cases empty : bitsAfter = 0
  · refine Or.inl ⟨if_pos empty, fun j below later => ?_⟩
    have off := bits j below
    rw [empty] at off
    simpa [later] using off.symm
  · rw [if_neg empty]
    have hit := BitVec.getLsbD_true_ctz_of_ne_zero empty
    have below := BitVec.lt_of_getLsbD hit
    have on := (bits _ below).symm.trans hit
    simp only [Bool.and_eq_true, decide_eq_true_eq] at on
    refine Or.inr ⟨below, on.2, on.1, fun j earlier later => ?_⟩
    have off := (bits j (earlier.trans below)).symm.trans (BitVec.getLsbD_false_of_lt_ctz earlier)
    simpa [later] using off

end Words

section Coordinates

theorem coordinates_inj {i j p s : Nat} (small : j < width) (small' : s < width)
    (same : width * i + j = width * p + s) : i = p ∧ j = s := by
  have rest := congrArg (· % width) same
  simp only [Nat.mul_add_mod, Nat.mod_eq_of_lt small, Nat.mod_eq_of_lt small'] at rest
  subst rest
  exact ⟨Nat.eq_of_mul_eq_mul_left (Nat.zero_lt_of_lt small) (Nat.add_right_cancel same), rfl⟩

@[simp] theorem index_index (place : Nat) : (index width place).index = place := rfl

theorem coordinates_le {i j p s : Nat} (small' : s < width) (small : j < width) :
    width * p + s ≤ width * i + j ↔ p < i ∨ (p = i ∧ s ≤ j) := by
  rcases Nat.lt_trichotomy p i with below | rfl | above
  · have := Nat.mul_le_mul_left width (Nat.succ_le_of_lt below)
    rw [Nat.mul_succ] at this
    simp only [below, true_or, iff_true]
    omega
  · simp
  · have := Nat.mul_le_mul_left width (Nat.succ_le_of_lt above)
    rw [Nat.mul_succ] at this
    omega

theorem index_eq (power : width = 2 ^ primaryBinShift width) (place : Nat) :
    index width place = ⟨place, place / width, place % width⟩ := by
  have mask : place &&& secondaryBinMask width = place % width := by
    rw [secondaryBinMask, Nat.one_shiftLeft, Nat.and_two_pow_sub_one_eq_mod, ← power]
  have shift : place >>> primaryBinShift width = place / width := by
    rw [Nat.shiftRight_eq_div_pow, ← power]
  rw [index, mask, shift]

theorem index_coordinates (power : width = 2 ^ primaryBinShift width) {primary secondary : Nat}
    (small : secondary < width) :
    index width (width * primary + secondary) =
      ⟨width * primary + secondary, primary, secondary⟩ := by
  rw [index_eq power, Nat.mul_add_div (by omega), Nat.mul_add_mod, Nat.div_eq_of_lt small,
    Nat.mod_eq_of_lt small, Nat.add_zero]

theorem joinIndex_eq (power : width = 2 ^ primaryBinShift width) {primary secondary : Nat}
    (small : secondary < width) :
    joinIndex width primary secondary = index width (width * primary + secondary) := by
  have joined : primary <<< primaryBinShift width ||| secondary = width * primary + secondary := by
    rw [← Nat.shiftLeft_add_eq_or_of_lt (power ▸ small), Nat.shiftLeft_eq, ← power, Nat.mul_comm]
  rw [index_coordinates power small, joinIndex, joined]

theorem index_split (positive : 0 < width) (place : Nat) :
    ∃ primary secondary, secondary < width ∧ place = width * primary + secondary :=
  ⟨place / width, place % width, Nat.mod_lt _ positive, (Nat.div_add_mod _ _).symm⟩

theorem primary_lt {length primary secondary : Nat}
    (inside : width * primary + secondary < width * length) : primary < length :=
  Nat.lt_of_mul_lt_mul_left (Nat.lt_of_le_of_lt (Nat.le_add_right _ _) inside)

end Coordinates

section Operations

variable {length : Nat} {mask : BitMask width} {members : Nat → Prop}

theorem getUnchecked_ok {α : Type} {slice : List α} {place : Nat} {item : α}
    (here : slice[place]? = some item) : getUnchecked slice place = .ok item := by
  simp [getUnchecked, here]

theorem new_represents (width length : Nat) :
    Represents length (new width length) (fun _ => False) where
  length_eq := List.length_replicate
  word i inside := ⟨0, by simp [new, inside], by simp⟩
  primary i _ := by simp [new]
  inside _ impossible := impossible.elim

theorem represents_unique {mask' : BitMask width}
    (rep : Represents length mask members) (rep' : Represents length mask' members) :
    mask = mask' := by
  have words : mask.secondaryMasks = mask'.secondaryMasks := by
    refine List.ext_getElem? fun i => ?_
    by_cases inside : i < length
    · obtain ⟨word, here, bits⟩ := rep.word i inside
      obtain ⟨word', here', bits'⟩ := rep'.word i inside
      rw [here, here']
      congr 1
      refine BitVec.eq_of_getLsbD_eq fun j below => ?_
      rw [Bool.eq_iff_iff, bits j below, bits' j below]
    · rw [List.getElem?_eq_none (by rw [rep.length_eq]; omega),
        List.getElem?_eq_none (by rw [rep'.length_eq]; omega)]
  have primaries : mask.primaryMask = mask'.primaryMask := by
    refine BitVec.eq_of_getLsbD_eq fun i below => ?_
    rw [Bool.eq_iff_iff, rep.primary i below, rep'.primary i below]
  cases mask
  cases mask'
  simp_all

variable (power : width = 2 ^ primaryBinShift width)

include power in
theorem set_ok (checks : Bool) {place : Nat} (order : length ≤ width)
    (rep : Represents length mask members) (inside : place < width * length) :
    ∃ mask', set checks mask (index width place) = .ok mask' ∧
      Represents length mask' (fun x => x = place ∨ members x) := by
  have positive : 0 < width := Nat.pos_of_ne_zero (by rintro rfl; simp at inside)
  obtain ⟨p, s, small, rfl⟩ := index_split positive place
  have low := primary_lt inside
  obtain ⟨old, here, bits⟩ := rep.word p low
  have run : set checks mask (index width (width * p + s)) = .ok
      { primaryMask := mask.primaryMask ||| BitVec.ofNat width 1 <<< p,
        secondaryMasks := mask.secondaryMasks.set p (old ||| BitVec.ofNat width 1 <<< s) } := by
    simp [set, index_coordinates power small, getUnchecked_ok here, bit_ok small,
      bit_ok (Nat.lt_of_lt_of_le low order), bind, Except.bind, pure, Except.pure]
  refine ⟨_, run, ?_, ?_, ?_, ?_⟩
  · simp [rep.length_eq]
  · intro i below
    by_cases same : i = p
    · subst same
      refine ⟨old ||| BitVec.ofNat width 1 <<< s, by simp [rep.length_eq, below], fun j wide => ?_⟩
      simp only [BitVec.getLsbD_or, getLsbD_bit wide, Bool.or_eq_true, decide_eq_true_eq,
        bits j wide, Nat.add_left_cancel_iff]
      exact or_comm
    · obtain ⟨word, there, wordBits⟩ := rep.word i below
      refine ⟨word, by simp [Ne.symm same, there], fun j wide => ?_⟩
      have different : width * i + j ≠ width * p + s := fun equal =>
        same (coordinates_inj wide small equal).1
      simp [wordBits j wide, different]
  · intro i wide
    simp only [BitVec.getLsbD_or, getLsbD_bit wide, Bool.or_eq_true, decide_eq_true_eq,
      rep.primary i wide]
    constructor
    · rintro (⟨j, below, member⟩ | rfl)
      · exact ⟨j, below, Or.inr member⟩
      · exact ⟨s, small, Or.inl rfl⟩
    · rintro ⟨j, below, equal | member⟩
      · exact Or.inr (coordinates_inj below small equal).1
      · exact Or.inl ⟨j, below, member⟩
  · rintro x (rfl | member)
    · exact inside
    · exact rep.inside x member

include power in
theorem unset_ok (checks : Bool) {place : Nat} (order : length ≤ width)
    (rep : Represents length mask members) (inside : place < width * length) :
    ∃ mask', unset checks mask (index width place) = .ok mask' ∧
      Represents length mask' (fun x => x ≠ place ∧ members x) := by
  have positive : 0 < width := Nat.pos_of_ne_zero (by rintro rfl; simp at inside)
  obtain ⟨p, s, small, rfl⟩ := index_split positive place
  have low := primary_lt inside
  obtain ⟨old, here, bits⟩ := rep.word p low
  let word := old &&& ~~~(BitVec.ofNat width 1 <<< s)
  have wordBits : ∀ j < width, word.getLsbD j = true ↔
      width * p + j ≠ width * p + s ∧ members (width * p + j) := by
    intro j wide
    simp only [word, BitVec.getLsbD_and, BitVec.getLsbD_not, getLsbD_bit wide, wide, decide_true,
      Bool.true_and, Bool.and_eq_true, bits j wide, Bool.not_eq_true', decide_eq_false_iff_not,
      ne_eq, Nat.add_left_cancel_iff]
    exact and_comm
  have run : unset checks mask (index width (width * p + s)) = .ok
      { primaryMask := if word = 0 then mask.primaryMask &&& ~~~(BitVec.ofNat width 1 <<< p)
          else mask.primaryMask,
        secondaryMasks := mask.secondaryMasks.set p word } := by
    simp only [unset, index_coordinates power small, getUnchecked_ok here, bit_ok small,
      bit_ok (Nat.lt_of_lt_of_le low order), bind, Except.bind, pure, Except.pure]
    by_cases empty : old &&& ~~~(BitVec.ofNat width 1 <<< s) = 0 <;> simp only [word, empty, ↓reduceIte]
  refine ⟨_, run, ?_, ?_, ?_, fun x member => rep.inside x member.2⟩
  · simp [rep.length_eq]
  · intro i below
    by_cases same : i = p
    · subst same
      exact ⟨word, by simp [rep.length_eq, below], wordBits⟩
    · obtain ⟨other, there, otherBits⟩ := rep.word i below
      refine ⟨other, by simp [Ne.symm same, there], fun j wide => ?_⟩
      have different : width * i + j ≠ width * p + s := fun equal =>
        same (coordinates_inj wide small equal).1
      simp [otherBits j wide, different]
  -- the primary bit falls exactly when the word has no member left
  · intro i wide
    have others : i ≠ p → ((∃ j < width, members (width * i + j)) ↔
        ∃ j < width, width * i + j ≠ width * p + s ∧ members (width * i + j)) := by
      intro different
      refine exists_congr fun j => and_congr_right fun below => ?_
      simp [show width * i + j ≠ width * p + s from fun equal =>
        different (coordinates_inj below small equal).1]
    by_cases empty : word = 0
    · simp only [empty, ↓reduceIte, BitVec.getLsbD_and, BitVec.getLsbD_not, getLsbD_bit wide, wide,
        decide_true, Bool.true_and, Bool.and_eq_true, rep.primary i wide, Bool.not_eq_true',
        decide_eq_false_iff_not]
      by_cases same : i = p
      · subst same
        simp only [not_true_eq_false, and_false, false_iff, not_exists, not_and]
        intro j below off member
        have on := (wordBits j below).mpr ⟨off, member⟩
        simp [empty] at on
      · simpa [same] using others same
    · simp only [empty, ↓reduceIte, rep.primary i wide]
      by_cases same : i = p
      · subst same
        obtain ⟨j, below, on⟩ : ∃ j < width, word.getLsbD j = true :=
          ⟨_, BitVec.lt_of_getLsbD (BitVec.getLsbD_true_ctz_of_ne_zero empty),
            BitVec.getLsbD_true_ctz_of_ne_zero empty⟩
        have kept := (wordBits j below).mp on
        exact ⟨fun _ => ⟨j, below, kept⟩, fun ⟨j, below, kept⟩ => ⟨j, below, kept.2⟩⟩
      · exact others same

def FirstFrom (width : Nat) (members : Nat → Prop) (least : Nat) : Option BitIndex → Prop
  | none => ∀ x, least ≤ x → ¬ members x
  | some found => found = index width found.index ∧ least ≤ found.index ∧ members found.index ∧
      ∀ x, least ≤ x → x < found.index → ¬ members x

include power in
theorem search_words (checks : Bool) {p s : Nat} (order : length < width) (low : p < length)
    (narrow : width < noBit) (rep : Represents length mask members) (small : s < width)
    (absentHere : ∀ j < width, s ≤ j → ¬ members (width * p + j)) :
    ∃ found, (do
        let primary ← lowestSetBitAfter checks mask.primaryMask (p + 1)
        if primary = noBit then
          return none
        let word ← getUnchecked mask.secondaryMasks primary
        return some (joinIndex width primary word.ctz.toNat)) = Except.ok found ∧
      FirstFrom width members (width * p + s) found := by
  have positive : 0 < width := by omega
  obtain ⟨next, run, lowest⟩ := lowestSetBitAfter_ok checks mask.primaryMask
    (p + 1) (by omega)
  rcases lowest with ⟨marker, absent⟩ | ⟨wide, above, hit, first⟩
  · refine ⟨none, by simp [run, marker, bind, Except.bind, pure, Except.pure], fun x least member => ?_⟩
    obtain ⟨i, j, below, rfl⟩ := index_split positive x
    have inside : i < width := (primary_lt (rep.inside _ member)).trans order
    rcases (coordinates_le small below).mp least with later | ⟨rfl, after⟩
    · have off := absent i inside later
      simp [(rep.primary i inside).mpr ⟨j, below, member⟩] at off
    · exact absentHere j below after member
  -- the primary bit promises a member, so the word has a lowest bit
  · obtain ⟨some_, someBelow, someMember⟩ := (rep.primary next wide).mp hit
    obtain ⟨word, here, bits⟩ := rep.word next (primary_lt (rep.inside _ someMember))
    have nonzero : word ≠ 0 := by
      rintro rfl
      simpa using (bits some_ someBelow).mpr someMember
    have lowestBit := BitVec.getLsbD_true_ctz_of_ne_zero nonzero
    have lowestSmall := BitVec.lt_of_getLsbD lowestBit
    have ordinary : next ≠ noBit := by omega
    refine ⟨some (joinIndex width next word.ctz.toNat),
      by simp [run, ordinary, getUnchecked_ok here, bind, Except.bind, pure, Except.pure], ?_⟩
    rw [joinIndex_eq power lowestSmall]
    refine ⟨rfl, (coordinates_le small lowestSmall).mpr (Or.inl above), (bits _ lowestSmall).mp lowestBit,
      fun x least earlier member => ?_⟩
    obtain ⟨i, j, below, rfl⟩ := index_split positive x
    have inside : i < width := (primary_lt (rep.inside _ member)).trans order
    have notLater := (coordinates_le lowestSmall below).not.mp (Nat.not_le_of_lt earlier)
    rcases (coordinates_le small below).mp least with later | ⟨rfl, after⟩
    · rcases Nat.lt_trichotomy i next with before | rfl | beyond
      · have off := first i before later
        simp [(rep.primary i inside).mpr ⟨j, below, member⟩] at off
      · have off := BitVec.getLsbD_false_of_lt_ctz
          (x := word) (i := j) (by by_contra; exact notLater (Or.inr ⟨rfl, by omega⟩))
        simp [(bits j below).mpr member] at off
      · exact notLater (Or.inl beyond)
    · exact absentHere j below after member

include power in
/-- `find_first` returns the least member at or above its argument. -/
theorem findFirst_ok (checks : Bool) {place : Nat} (order : length < width)
    (narrow : width < noBit) (rep : Represents length mask members)
    (inside : place < width * length) :
    ∃ found, findFirst checks mask (index width place) = .ok found ∧
      FirstFrom width members place found := by
  have positive : 0 < width := by omega
  obtain ⟨p, s, small, rfl⟩ := index_split positive place
  have low := primary_lt inside
  obtain ⟨word, here, bits⟩ := rep.word p low
  have primaryBit : ((mask.primaryMask &&& BitVec.ofNat width 1 <<< p) = 0) ↔
      mask.primaryMask.getLsbD p = false := by
    constructor
    · intro zero
      have off := congrArg (fun value => value.getLsbD p) zero
      simpa [getLsbD_bit (low.trans order)] using off
    · intro off
      refine BitVec.eq_of_getLsbD_eq fun j below => ?_
      by_cases same : j = p
      · simp [same, off]
      · simp [BitVec.getLsbD_and, getLsbD_bit below, same]
  have next : add checks sizeBits p 1 = .ok (p + 1) :=
    add_ok (by simp only [sizeBits, noBit] at *; omega)
  have pBit : bit checks width p = .ok (BitVec.ofNat width 1 <<< p) := bit_ok (low.trans order)
  by_cases set : mask.primaryMask.getLsbD p = false
  -- the word of the starting place is empty, so the search begins at the next one
  · have absentHere : ∀ j < width, s ≤ j → ¬ members (width * p + j) := by
      intro j below _ member
      simp [(rep.primary p (low.trans order)).mpr ⟨j, below, member⟩] at set
    obtain ⟨found, run, least⟩ :=
      search_words power checks order low narrow rep small absentHere
    refine ⟨found, ?_, least⟩
    rw [← run]
    simp [findFirst, index_coordinates power small, pBit, primaryBit.mpr set, next, bind,
      Except.bind, pure, Except.pure]
  · have set' : ¬ (mask.primaryMask &&& BitVec.ofNat width 1 <<< p) = BitVec.ofNat width 0 :=
      primaryBit.not.mpr set
    obtain ⟨secondary, run, lowest⟩ := lowestSetBitAfter_ok checks word s small
    rcases lowest with ⟨marker, absent⟩ | ⟨wide, above, hit, first⟩
    -- its members all come before the starting place
    · have absentHere : ∀ j < width, s ≤ j → ¬ members (width * p + j) := by
        intro j below after member
        have off := absent j below after
        simp [(bits j below).mpr member] at off
      obtain ⟨found, runLater, least⟩ :=
        search_words power checks order low narrow rep small absentHere
      refine ⟨found, ?_, least⟩
      rw [← runLater]
      simp [findFirst, index_coordinates power small, pBit, set', getUnchecked_ok here, run, marker,
        next, bind, Except.bind, pure, Except.pure]
    · have ordinary : secondary ≠ noBit := by omega
      refine ⟨some (joinIndex width p secondary), ?_, ?_⟩
      · simp [findFirst, index_coordinates power small, pBit, set', getUnchecked_ok here, run,
          ordinary, bind, Except.bind, pure, Except.pure]
      · rw [joinIndex_eq power wide]
        refine ⟨rfl, (coordinates_le small wide).mpr (Or.inr ⟨rfl, above⟩), (bits _ wide).mp hit,
          fun x least earlier member => ?_⟩
        obtain ⟨i, j, below, rfl⟩ := index_split positive x
        have notLater := (coordinates_le wide below).not.mp (Nat.not_le_of_lt earlier)
        rcases (coordinates_le small below).mp least with later | ⟨rfl, after⟩
        · exact notLater (Or.inl later)
        · have off := first j (by by_contra; exact notLater (Or.inr ⟨rfl, by omega⟩)) after
          simp [(bits j below).mpr member] at off

end Operations

end BitMask

end Picoalloc
