import Picoalloc.FreeLists
import Picoalloc.Rounding

/-!
Bin configurations and the masks they lead to. The mask of the configuration that
the crate ships refines a set of bin indices. Of the other configurations that
`calculate_optimal_bin_config` accepts, those whose bins reach the last word of a
full mask shift by the width of the mask.
-/

namespace Picoalloc
open CheckedMachine

section Edits

inductive Edit where
  | set (index : Nat)
  | unset (index : Nat)
  deriving DecidableEq, Repr

def Edit.index : Edit → Nat
  | .set index | .unset index => index

def BitMask.apply {width : Nat} (checks : Bool) (mask : BitMask width) :
    Edit → Checked (BitMask width)
  | .set index => mask.set checks (BitMask.index width index)
  | .unset index => mask.unset checks (BitMask.index width index)

def edited (members : Finset Nat) : Edit → Finset Nat
  | .set index => insert index members
  | .unset index => members.erase index

/-- The result of `find_first`: the least member from `least` on, with its coordinates. -/
def LeastMember (width : Nat) (members : Finset Nat) (least : Nat) : Option BitIndex → Prop
  | none => ∀ x ∈ members, x < least
  | some found => found = BitMask.index width found.index ∧
      IsLeast {x | x ∈ members ∧ least ≤ x} found.index

variable {width length : Nat} {mask : BitMask width} {members : Finset Nat}

theorem apply_ok (power : width = 2 ^ BitMask.primaryBinShift width) (checks : Bool)
    (order : length ≤ width) (rep : BitMask.Represents length mask (· ∈ members)) {edit : Edit}
    (inside : edit.index < width * length) :
    ∃ mask', mask.apply checks edit = .ok mask' ∧
      BitMask.Represents length mask' (· ∈ edited members edit) := by
  cases edit with
  | set index =>
      obtain ⟨mask', run, rep'⟩ := BitMask.set_ok power checks order rep inside
      exact ⟨mask', run, represents_congr (fun x => by simp [edited, Edit.index]) rep'⟩
  | unset index =>
      obtain ⟨mask', run, rep'⟩ := BitMask.unset_ok power checks order rep inside
      exact ⟨mask', run, represents_congr (fun x => by simp [edited, Edit.index]) rep'⟩

theorem edits_ok (power : width = 2 ^ BitMask.primaryBinShift width) (checks : Bool)
    (order : length ≤ width) {edits : List Edit}
    (inside : ∀ edit ∈ edits, edit.index < width * length)
    (rep : BitMask.Represents length mask (· ∈ members)) :
    ∃ mask', edits.foldlM (BitMask.apply checks) mask = .ok mask' ∧
      BitMask.Represents length mask' (· ∈ edits.foldl edited members) := by
  induction edits generalizing mask members with
  | nil => exact ⟨mask, rfl, rep⟩
  | cons edit rest ih =>
      obtain ⟨next, run, rep'⟩ := apply_ok power checks order rep (inside edit (by simp))
      obtain ⟨mask', runs, rep''⟩ := ih (fun later there => inside later (by simp [there])) rep'
      refine ⟨mask', ?_, rep''⟩
      rw [List.foldlM_cons, run]
      exact runs

theorem leastMember_of_firstFrom {least : Nat} {found : Option BitIndex}
    (first : BitMask.FirstFrom width (· ∈ members) least found) :
    LeastMember width members least found := by
  cases found with
  | none => exact fun x member => Nat.lt_of_not_le fun later => first x later member
  | some found =>
      obtain ⟨coordinates, later, member, earlier⟩ := first
      refine ⟨coordinates, ⟨member, later⟩, fun x there => ?_⟩
      by_contra before
      exact earlier x there.2 (Nat.lt_of_not_le before) there.1

/-- The mask of the shipped configuration refines a set: `find_first` finds its least
member from any bin on, and no call faults. -/
theorem mask_refines_set (checks : Bool) (target : Target) {edits : List Edit}
    (inside : ∀ edit ∈ edits, edit.index < (Bins.binConfig target).binCount) :
    (Bins.binConfig target).binCount = (if target.maskBits = 32 then 672 else 2432) ∧
      ∃ mask, edits.foldlM (BitMask.apply checks) (BitMask.new target.maskBits
          (Bins.secondaryLength target.maskBits (Bins.binConfig target).binCount)) = .ok mask ∧
        ∀ least < (Bins.binConfig target).binCount, ∃ found,
          mask.findFirst checks (BitMask.index target.maskBits least) = .ok found ∧
            LeastMember target.maskBits (edits.foldl edited ∅) least found := by
  refine ⟨by rw [Bins.binConfig_eq]; split <;> rfl, ?_⟩
  have power := maskBits_power target
  have order := secondaryWords_lt target
  have start : BitMask.Represents (secondaryWords target)
      (BitMask.new target.maskBits (secondaryWords target)) (· ∈ (∅ : Finset Nat)) :=
    represents_congr (fun x => by simp) (BitMask.new_represents _ _)
  rw [binCount_eq] at inside ⊢
  obtain ⟨mask, run, rep⟩ := edits_ok power checks order.le inside start
  refine ⟨mask, ?_, fun least small => ?_⟩
  · rw [← binCount_eq]
    exact run
  · obtain ⟨found, search, first⟩ :=
      BitMask.findFirst_ok power checks order (maskBits_narrow target) rep small
    exact ⟨found, search, leastMember_of_firstFrom first⟩

theorem mask_refines_set_sample :
    ∃ mask, [Edit.set 2431, .set 5, .unset 5].foldlM (BitMask.apply true)
        (BitMask.new Target.x86_64.maskBits
          (Bins.secondaryLength Target.x86_64.maskBits (Bins.binConfig .x86_64).binCount)) =
        .ok mask ∧
      ∀ least < (Bins.binConfig .x86_64).binCount, ∃ found,
        mask.findFirst true (BitMask.index Target.x86_64.maskBits least) = .ok found ∧
          LeastMember Target.x86_64.maskBits
            ([Edit.set 2431, .set 5, .unset 5].foldl edited ∅) least found :=
  (mask_refines_set true .x86_64 (by rw [Bins.binConfig_eq]; decide)).2

end Edits

section Accepted

variable {width maxSize requested : Nat} {config : Bins.AllocatorBinConfig}

def binLimit (width requested : Nat) : Nat := min requested (width * width)

/-- The bin of the largest allocation size, rounded up, at a mantissa width. -/
def HighestBin (maxSize mantissaBits bin : Nat) : Prop :=
  Bins.toBinIndexGeneric true mantissaBits true maxSize = .ok bin

/-- What an accepted configuration has to offer. No call on a mask of bins below its
count faults, and searches are right. -/
structure Usable (width maxSize requested : Nat) (config : Bins.AllocatorBinConfig) : Prop where
  count : config.binCount ≤ binLimit width requested
  mantissa : (1 ≤ config.mantissaBits ∧ config.mantissaBits ≤ 8) ∧
    (∃ bin < binLimit width requested, HighestBin maxSize config.mantissaBits bin) ∧
    ∀ wider, config.mantissaBits < wider → wider ≤ 8 →
      ∀ bin, HighestBin maxSize wider bin → binLimit width requested ≤ bin
  bins : ∀ size ≤ maxSize, ∀ roundUp, ∃ bin < config.binCount,
    Bins.toBinIndexGeneric true config.mantissaBits roundUp size = .ok bin
  words : Bins.secondaryLength width config.binCount ≤ width
  calls : ∀ (mask : BitMask width) (members : Nat → Prop),
    BitMask.Represents (Bins.secondaryLength width config.binCount) mask members →
    (∀ x, members x → x < config.binCount) → ∀ index < config.binCount,
      (∃ mask', mask.set true (BitMask.index width index) = .ok mask') ∧
      (∃ mask', mask.unset true (BitMask.index width index) = .ok mask') ∧
      ∃ found, mask.findFirst true (BitMask.index width index) = .ok found ∧
        BitMask.FirstFrom width members index found

theorem tryAll_ok {limit : Nat} {widths : List Nat} (fits : maxSize < 2 ^ 32)
    (range : ∀ mantissaBits ∈ widths, 1 ≤ mantissaBits ∧ mantissaBits ≤ 8)
    (accepted : Bins.tryAll maxSize limit widths = .ok config) :
    ∃ before after, widths = before ++ config.mantissaBits :: after ∧
      config.binCount = Bins.binIndex config.mantissaBits true maxSize + 1 ∧
      config.binCount ≤ limit ∧ ∀ wider ∈ before, limit ≤ Bins.binIndex wider true maxSize := by
  induction widths with
  | nil => cases accepted
  | cons first rest ih =>
      obtain ⟨low, high⟩ := range first (by simp)
      rw [Bins.tryAll, Bins.toBinIndexGeneric_ok true true low high fits] at accepted
      by_cases below : Bins.binIndex first true maxSize < limit
      · simp only [bind, Except.bind, if_pos below] at accepted
        cases accepted
        exact ⟨[], rest, rfl, rfl, below, fun _ member => nomatch member⟩
      · simp only [bind, Except.bind, if_neg below] at accepted
        obtain ⟨before, after, split, count, fit, tried⟩ :=
          ih (fun mantissaBits member => range mantissaBits (by simp [member])) accepted
        refine ⟨first :: before, after, by rw [split]; rfl, count, fit, fun wider member => ?_⟩
        rcases List.mem_cons.mp member with rfl | earlier
        · exact Nat.le_of_not_lt below
        · exact tried wider earlier

/-- An accepted configuration has the widest mantissa whose bins fit. -/
theorem config_chosen (fits : maxSize < 2 ^ 32)
    (accepted : Bins.calculateOptimalBinConfig width maxSize requested = .ok config) :
    (1 ≤ config.mantissaBits ∧ config.mantissaBits ≤ 8) ∧
      config.binCount = Bins.binIndex config.mantissaBits true maxSize + 1 ∧
      config.binCount ≤ binLimit width requested ∧
      ∀ wider, config.mantissaBits < wider → wider ≤ 8 →
        binLimit width requested ≤ Bins.binIndex wider true maxSize := by
  have limit : (if width * width < requested then width * width else requested) =
      binLimit width requested := by
    rw [binLimit]
    split <;> omega
  rw [Bins.calculateOptimalBinConfig] at accepted
  simp only [limit] at accepted
  obtain ⟨before, after, split, count, fit, tried⟩ := tryAll_ok fits (by decide) accepted
  have range : config.mantissaBits ∈ [8, 7, 6, 5, 4, 3, 2, 1] := by rw [split]; simp
  have descending : (before ++ config.mantissaBits :: after).Pairwise (· > ·) := by
    rw [← split]
    decide
  refine ⟨by simp at range; omega, count, fit, fun wider above most => tried wider ?_⟩
  have member : wider ∈ before ++ config.mantissaBits :: after := by
    rw [← split]
    simp
    omega
  rcases List.mem_append.mp member with earlier | later
  · exact earlier
  · rcases List.mem_cons.mp later with rfl | later
    · omega
    · have lower := List.rel_of_pairwise_cons (List.pairwise_append.mp descending).2.1 later
      omega

theorem secondaryLength_le {count words : Nat} (positive : 0 < width) :
    Bins.secondaryLength width count ≤ words ↔ count ≤ width * words := by
  have split := Nat.div_add_mod count width
  have small := Nat.mod_lt count positive
  rw [Bins.secondaryLength]
  constructor
  · intro enough
    have scaled := Nat.mul_le_mul_left width enough
    rw [Nat.mul_add] at scaled
    split at scaled <;> omega
  · intro inside
    have quotient := Nat.div_le_div_right (c := width) inside
    rw [Nat.mul_div_cancel_left words positive] at quotient
    split
    · refine Nat.lt_of_le_of_ne quotient ?_
      rintro rfl
      omega
    · omega

theorem config_bins (fits : maxSize < 2 ^ 32)
    (accepted : Bins.calculateOptimalBinConfig width maxSize requested = .ok config)
    {size : Nat} (small : size ≤ maxSize) (roundUp : Bool) : ∃ bin < config.binCount,
      Bins.toBinIndexGeneric true config.mantissaBits roundUp size = .ok bin := by
  obtain ⟨⟨low, high⟩, count, -, -⟩ := config_chosen fits accepted
  have grid := Bins.bins_grid low
  refine ⟨_, ?_, Bins.toBinIndexGeneric_ok true roundUp low high (small.trans_lt fits)⟩
  have order : Bins.binIndex config.mantissaBits true size ≤
      Bins.binIndex config.mantissaBits true maxSize := grid.up_mono small
  cases roundUp with
  | true => omega
  | false =>
      have below : Bins.binIndex config.mantissaBits false size ≤
          Bins.binIndex config.mantissaBits true size := by
        simp only [Bins.binIndex, Bool.false_eq_true, false_and, ↓reduceIte]
        omega
      omega

/-- A search from the last word of a full mask that finds nothing there shifts by the
width of the mask. -/
theorem search_overflows (power : width = 2 ^ BitMask.primaryBinShift width)
    (narrow : width < noBit) (length : Nat) :
    (BitMask.new width length).findFirst true (BitMask.index width (width * (width - 1))) =
      .error .panic := by
  have positive : 0 < width := power ▸ Nat.two_pow_pos _
  have place : BitMask.index width (width * (width - 1)) = ⟨width * (width - 1), width - 1, 0⟩ := by
    have coordinates : BitMask.index width (width * (width - 1) + 0) = _ :=
      BitMask.index_coordinates power positive
    simpa using coordinates
  have next : add true sizeBits (width - 1) 1 = .ok width := by
    rw [add_ok (by simp only [sizeBits, noBit] at *; omega), Nat.sub_add_cancel positive]
  have primaryBit : bit true width (width - 1) = .ok (BitVec.ofNat width 1 <<< (width - 1)) :=
    bit_ok (Nat.sub_lt positive Nat.one_pos)
  have shifted : bit true width width = .error .panic := by simp [bit]
  simp [BitMask.findFirst, place, primaryBit, BitMask.new, next, BitMask.lowestSetBitAfter, shifted,
    bind, Except.bind, pure, Except.pure]

/-- An accepted configuration is usable exactly when no mantissa width puts the bin of
the largest size into the last word of a full mask. -/
theorem config_usable_iff (mask : width = 32 ∨ width = 64) (fits : maxSize < 2 ^ sizeBits)
    (accepted : Bins.calculateOptimalBinConfig width maxSize requested = .ok config) :
    Usable width maxSize requested config ↔
      ∀ mantissaBits, 1 ≤ mantissaBits → mantissaBits ≤ 8 → ∀ bin, HighestBin maxSize mantissaBits bin →
        ¬ (width * (width - 1) ≤ bin ∧ bin < binLimit width requested) := by
  have power : width = 2 ^ BitMask.primaryBinShift width := by rcases mask with rfl | rfl <;> decide
  have narrow : width < noBit := by rcases mask with rfl | rfl <;> decide
  have positive : 0 < width := by omega
  obtain ⟨⟨low, high⟩, count, fit, tried⟩ := config_chosen fits accepted
  have highest : ∀ {mantissaBits bin}, 1 ≤ mantissaBits → mantissaBits ≤ 8 →
      (HighestBin maxSize mantissaBits bin ↔ Bins.binIndex mantissaBits true maxSize = bin) := by
    intro mantissaBits bin least most
    rw [HighestBin, Bins.toBinIndexGeneric_ok true true least most fits, Except.ok.injEq]
  constructor
  · intro usable mantissaBits least most bin here inside
    rw [highest least most] at here
    subst here
    -- The mantissa that was chosen is at least as wide, so its bins reach as far.
    have wider : mantissaBits ≤ config.mantissaBits := by
      by_contra narrower
      have skipped := tried mantissaBits (Nat.lt_of_not_le narrower) most
      omega
    have order : Bins.binIndex mantissaBits true maxSize ≤
        Bins.binIndex config.mantissaBits true maxSize :=
      monotone_nat_of_le_succ (fun bits => Bins.binIndex_wider bits maxSize) wider
    obtain ⟨-, -, found, search, -⟩ := usable.calls _ _ (BitMask.new_represents width _)
      (fun _ impossible => impossible.elim) (width * (width - 1)) (by omega)
    rw [search_overflows power narrow] at search
    cases search
  · intro short
    have below := short config.mantissaBits low high _ ((highest low high).mpr rfl)
    have words : Bins.secondaryLength width config.binCount ≤ width - 1 :=
      (secondaryLength_le positive).mpr (by omega)
    have room : config.binCount ≤ width * Bins.secondaryLength width config.binCount :=
      (secondaryLength_le positive).mp (Nat.le_refl _)
    refine ⟨fit, ⟨⟨low, high⟩, ⟨_, by omega, (highest low high).mpr rfl⟩,
      fun wider more most bin here => ?_⟩, fun size small roundUp => config_bins fits accepted small roundUp,
      by omega, fun mask members rep _ index inside => ⟨?_, ?_, ?_⟩⟩
    · rw [highest (by omega) most] at here
      exact here ▸ tried wider more most
    · obtain ⟨mask', run, -⟩ := BitMask.set_ok power true (by omega) rep (inside.trans_le room)
      exact ⟨mask', run⟩
    · obtain ⟨mask', run, -⟩ := BitMask.unset_ok power true (by omega) rep (inside.trans_le room)
      exact ⟨mask', run⟩
    · exact BitMask.findFirst_ok power true (by omega) narrow rep (inside.trans_le room)

/-- The configuration of the crate is usable. -/
theorem config_usable_shipped : Usable 64 maxAllocationSize maxBins ⟨7, 2432⟩ := by
  refine (config_usable_iff (Or.inr rfl) (by decide) (by decide +kernel)).mpr ?_
  intro mantissaBits low high bin here inside
  have outside : ∀ bits ∈ List.range 9, check
      (fun bin => !(decide (64 * (64 - 1) ≤ bin) && decide (bin < binLimit 64 maxBins)))
      (Bins.toBinIndexGeneric true bits true maxAllocationSize) = true := by decide +kernel
  have tested := outside mantissaBits (List.mem_range.mpr (by omega))
  rw [HighestBin] at here
  rw [here] at tested
  simp [check, inside] at tested

/-- With 256 MiB as the largest allocation the bins fill the mask, and a search overflows. -/
theorem config_full_unusable :
    Bins.calculateOptimalBinConfig 64 (2 ^ 23) 4096 = .ok ⟨8, 4096⟩ ∧
      ¬ Usable 64 (2 ^ 23) 4096 ⟨8, 4096⟩ := by
  refine ⟨by decide +kernel, fun usable => ?_⟩
  obtain ⟨-, -, found, search, -⟩ := usable.calls _ _ (BitMask.new_represents 64 _)
    (fun _ impossible => impossible.elim) (64 * (64 - 1)) (by decide)
  rw [search_overflows (by decide) (by decide)] at search
  cases search

end Accepted

end Picoalloc
