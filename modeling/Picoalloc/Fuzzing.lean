import Picoalloc.Environments
import Picoalloc.Ownership

/-!
The fuzz target that runs operations on an allocator over a buffer. It keeps a copy of
what it wrote to each allocation and asserts that memory agrees with it; a failing
assertion is a panic. No sequence of operations makes it panic.
-/

namespace Picoalloc.Fuzz
open CheckedMachine ByteMemory

/-- What the fuzzer feeds to the target; `u16` arguments, and an index of any size. -/
inductive Op where
  | alloc (align size : UInt16)
  | free (index : Nat)
  | shrink (index : Nat) (size : UInt16)
  | grow (index : Nat) (size : UInt16)
  deriving DecidableEq, Repr

/-- `oorandom::Rand64`, whose numbers do not matter here. -/
structure Rand64 (ρ : Type) where
  new : Nat → ρ
  randU64 : ρ → UInt64 × ρ

def toLeBytes (value : UInt64) : List UInt8 :=
  (List.range 8).map fun index => (value >>> UInt64.ofNat (8 * index)).toUInt8

/-- The loops of `fill_slice`: eight bytes at once while there are more than eight. -/
def fillRest {ρ : Type} (rand : Rand64 ρ) : Nat → ρ → List UInt8
  | 0, _ => []
  | length + 9, rng =>
      let (value, rng) := rand.randU64 rng
      toLeBytes value ++ fillRest rand (length + 1) rng
  | length + 1, rng =>
      let (value, rng) := rand.randU64 rng
      value.toUInt8 :: fillRest rand length rng

def fillSlice {ρ : Type} (rand : Rand64 ρ) (seed length : Nat) : List UInt8 :=
  fillRest rand length (rand.new seed)

def nextPowerOfTwo (n : Nat) : Nat := 2 ^ Nat.clog 2 n

def swapRemove {α : Type} (items : List α) (index : Nat) : Checked (α × List α) :=
  match items[index]?, items.getLast? with
  | some item, some last => .ok (item, (items.set index last).dropLast)
  | _, _ => .error .panic

/-- The environment `TestEnv<SIZE, LIMIT>` with its buffer at `pointer`. -/
def testEnv (target : Target) (pointer size limit : Nat) : Env Unit where
  totalSpace _ := (Size.fromBytesUsize target (size * 16)).getD 0
  allocateAddressSpace _ := (pointer, ())
  expandMemoryUntil _ _ requested :=
    (decide (requested ≤ (Size.fromBytesUsize target limit).getD 0), ())
  freeAddressSpace _ _ := ()

def sentinel : UInt8 := 170

def bufferOf (memory : Memory) (pointer size limit : Nat) : Memory :=
  fill (fill memory pointer size sentinel) pointer limit 0

structure Harness (build : Build) where
  allocator : AllocatorState build Unit
  allocations : List (Nat × List UInt8)
  aliveAddresses : Finset Nat

abbrev HarnessRun (build : Build) (α : Type) := Exec (Harness build) α

section Target

variable (build : Build) {ρ : Type} (rand : Rand64 ρ) (pointer size limit : Nat)

def assert (holds : Bool) : HarnessRun build PUnit :=
  if holds then return else throw .panic

def unwrap {α : Type} (value : Option α) : HarnessRun build α :=
  match value with
  | none => throw .panic
  | some a => return a

def call {α : Type} (run : Run build Unit α) : HarnessRun build α := fun harness => do
  let (result, allocator) ← run harness.allocator
  return (result, { harness with allocator })

def fromRawParts (address length : Nat) : HarnessRun build (List UInt8) := do
  return slice (← get).allocator.memory address length

def copyFromSlice (address : Nat) (bytes : List UInt8) : HarnessRun build PUnit :=
  modify fun harness => { harness with allocator := harness.allocator.pokes address bytes }

def allocation (index : Nat) : HarnessRun build (Nat × List UInt8) := do
  unwrap build (← get).allocations[index]?

def expect (index : Nat) (pointer : Nat) (data : List UInt8) : HarnessRun build PUnit :=
  modify fun harness => { harness with allocations := harness.allocations.set index (pointer, data) }

def checkData (index : Nat) : HarnessRun build PUnit := do
  let (pointer, expectedData) ← allocation build index
  assert build ((← fromRawParts build pointer expectedData.length) == expectedData)

def alloc (align size : UInt16) (E : Env Unit) : HarnessRun build PUnit := do
  let align := max 1 (nextPowerOfTwo align.toNat)
  let size := max 1 size.toNat
  let alignSize ← unwrap build (Size.fromBytesUsize build.target align)
  let requestedSize ← unwrap build (Size.fromBytesUsize build.target size)
  match ← call build (allocZeroed build E alignSize requestedSize) with
  | none => return
  | some pointer =>
      assert build (pointer % align == 0)
      let usable ← call build (usableSize build pointer)
      assert build (decide (size ≤ usable))
      assert build ((← fromRawParts build pointer usable).all (· == 0))
      copyFromSlice build pointer (fillSlice rand pointer usable)
      let data ← fromRawParts build pointer usable
      modify fun harness => { harness with
        allocations := harness.allocations ++ [(pointer, data)]
        aliveAddresses := insert pointer harness.aliveAddresses }

def free (index : Nat) (E : Env Unit) : HarnessRun build PUnit := do
  let harness ← get
  if harness.allocations.isEmpty then return
  else
    let index := index % harness.allocations.length
    let ((pointer, expectedData), allocations) ← swapRemove harness.allocations index
    modify fun harness => { harness with allocations }
    -- `assert!(alive_addresses.remove(..))`
    assert build (decide (pointer ∈ harness.aliveAddresses))
    modify fun harness => { harness with aliveAddresses := harness.aliveAddresses.erase pointer }
    assert build ((← fromRawParts build pointer expectedData.length) == expectedData)
    call build (Picoalloc.free build E pointer)

def shrink (index : Nat) (size : UInt16) (E : Env Unit) : HarnessRun build PUnit := do
  let size ← unwrap build (Size.fromBytesUsize build.target (size.toNat + 1))
  let harness ← get
  if harness.allocations.isEmpty then return
  else
    let index := index % harness.allocations.length
    checkData build index
    let (pointer, data) ← allocation build index
    -- the copy is cut first, and then compared with what the call left
    expect build index pointer (data.take (Size.bytes size))
    call build (shrinkInplace build E pointer size)
    checkData build index

def grow (index : Nat) (size : UInt16) (E : Env Unit) : HarnessRun build PUnit := do
  let size ← unwrap build (Size.fromBytesUsize build.target (size.toNat + 1))
  let harness ← get
  if harness.allocations.isEmpty then return
  else
    let index := index % harness.allocations.length
    let (pointer, data) ← allocation build index
    match ← call build (growInplace build E pointer size) with
    | none => return
    | some newSize =>
        let oldSize := data.length
        let newSize := Size.bytes newSize
        if oldSize = newSize then return
        else
          -- the slice between the sizes, which are in order
          assert build (decide (oldSize ≤ newSize))
          let more := fillSlice rand (pointer ^^^ 170) (newSize - oldSize)
          copyFromSlice build (pointer + oldSize) more
          expect build index pointer (data ++ more)
          checkData build index

def perform (E : Env Unit) : Op → HarnessRun build PUnit
  | .alloc align size => alloc build rand align size E
  | .free index => free build index E
  | .shrink index size => shrink build index size E
  | .grow index size => grow build rand index size E

def fuzzTarget (ops : List Op) : HarnessRun build PUnit := do
  let E := testEnv build.target pointer size limit
  ops.forM (perform build rand E)
  call build (drop build E)
  -- behind `LIMIT` the buffer still holds the sentinel
  assert build ((← fromRawParts build (pointer + limit) (size - limit)).all (· == sentinel))

def Harness.start (memory : Memory) : Harness build where
  allocator := Allocator.new build () (bufferOf memory pointer size limit)
  allocations := []
  aliveAddresses := ∅

end Target

section Arguments

variable {target : Target} {bytes units : Nat}

theorem fillRest_length {ρ : Type} (rand : Rand64 ρ) (length : Nat) (rng : ρ) :
    (fillRest rand length rng).length = length := by
  fun_induction fillRest rand length rng with
  | case1 => rfl
  | case2 length rng value rng' drawn ih =>
      rw [List.length_append, ih, toLeBytes, List.length_map, List.length_range]
      omega
  | case3 length rng few value rng' drawn ih => rw [List.length_cons, ih]

theorem swapRemove_ok {α : Type} {items : List α} {index : Nat} (inside : index < items.length) :
    ∃ rest, swapRemove items index = .ok (items[index], rest) ∧ items.Perm (items[index] :: rest) := by
  obtain ⟨init, last, rfl⟩ := (List.eq_nil_or_concat' items).resolve_left (by
    rintro rfl
    exact absurd inside (Nat.not_lt_zero _))
  refine ⟨((init ++ [last]).set index last).dropLast, ?_, ?_⟩
  · rw [swapRemove, List.getElem?_eq_getElem inside, List.getLast?_concat]
  · rw [List.length_append, List.length_singleton] at inside
    rcases Nat.lt_or_ge index init.length with earlier | here
    · rw [List.getElem_append_left earlier, List.set_append_left _ _ earlier, List.dropLast_concat]
      calc (init ++ [last]).Perm (last :: init) := List.perm_append_singleton last init
        _ |>.Perm (last :: init[index] :: init.eraseIdx index) :=
          (List.getElem_cons_eraseIdx_perm earlier).symm.cons last
        _ |>.Perm (init[index] :: last :: init.eraseIdx index) := .swap _ _ _
        _ |>.Perm (init[index] :: init.set index last) :=
          (List.set_perm_cons_eraseIdx earlier last).symm.cons _
    · obtain rfl : index = init.length := by omega
      simp [List.perm_append_singleton]

theorem fromBytesUsize_some (target : Target) (low : bytes ≤ 65536) :
    ∃ units, Size.fromBytesUsize target bytes = some units := by
  have wide : 2 ^ 32 ≤ 2 ^ target.usizeBits := by cases target <;> decide
  rw [Size.fromBytesUsize, if_pos (by simp only [allocationGranularity]; omega), if_neg]
  · exact ⟨_, rfl⟩
  · simp only [allocationGranularity, allocationSizeShift, sizeBits, Nat.shiftRight_eq_div_pow]
    omega

theorem nextPowerOfTwo_le {n : Nat} (low : n < 65536) : nextPowerOfTwo n ≤ 65536 := by
  have exponent : Nat.clog 2 n ≤ 16 := Nat.clog_le_of_le_pow low.le
  exact Nat.pow_le_pow_right (by decide) exponent

theorem power_dvd_bytes {k : Nat} (low : 2 ^ k ≤ 65536)
    (admitted : Size.fromBytesUsize target (2 ^ k) = some units) : 2 ^ k ∣ Size.bytes units := by
  obtain ⟨covers, tight, -⟩ := fromBytesUsize_eq admitted
  rw [bytes_eq (by simp only [unitLimit]; omega)]
  rcases Nat.le_total k 5 with small | large
  · exact Dvd.dvd.mul_right (pow_dvd_pow 2 small) units
  · obtain ⟨multiple, exact_⟩ := pow_dvd_pow 2 large
    have same : 32 * units = 2 ^ k := by omega
    rw [same]

end Arguments

/-- The buffer lies where its alignment and the space behind it allow, and the bytes that may be
used are whole units of it. -/
structure Buffered (target : Target) (pointer size limit total : Nat) : Prop where
  units : Size.fromBytesUsize target (size * 16) = some total
  positive : 0 < total
  small : total < unitLimit
  nonnull : pointer ≠ Pointer.null
  aligned : pointer % 32 = 0
  inside : pointer + 32 * total < 2 ^ target.addressBits
  whole : limit % 32 = 0
  fits : limit ≤ size

section Buffers

variable {target : Target} {build : Build} {pointer size limit total : Nat} {memory : Memory}

theorem testEnv_lawful (buffered : Buffered target pointer size limit total) :
    (testEnv target pointer size limit).Lawful target total where
  constant _ := by
    rw [testEnv, buffered.units]
    rfl
  positive := buffered.positive
  small := buffered.small
  base _ := Or.inr ⟨buffered.aligned, buffered.inside⟩

/-- The bytes of the buffer that may be used. -/
def Usable (pointer limit : Nat) (_ : Unit) (a : Nat) : Prop := pointer ≤ a ∧ a < pointer + limit

theorem testEnv_backed (buffered : Buffered target pointer size limit total) :
    (testEnv target pointer size limit).Backed total (Usable pointer limit)
      (fun _ base => base = pointer) (fun _ => True) where
  reserve _ _ := by
    rw [if_neg (show (testEnv target pointer size limit |>.allocateAddressSpace ()).1 ≠ Pointer.null
      from buffered.nonnull)]
    rfl
  grow _ _ _ reserved := reserved
  keep _ _ _ _ _ usable := usable
  grant _ base requested reserved _ granted := by
    intro a above below
    subst reserved
    have whole := buffered.whole
    have granted : requested ≤ (Size.fromBytesUsize target limit).getD 0 := of_decide_eq_true granted
    cases admitted : Size.fromBytesUsize target limit with
    | none =>
        rw [admitted] at granted
        simp only [Option.getD_none] at granted
        exact ⟨above, by omega⟩
    | some units =>
        obtain ⟨-, tight, -⟩ := fromBytesUsize_eq admitted
        rw [admitted, Option.getD_some] at granted
        exact ⟨above, by omega⟩
  release _ _ _ := trivial

variable {session : Session build Unit}

theorem backed_reached {E : Env Unit} (reached : Reached build E memory session) :
    BackedReached build E (fun _ => True) memory session := by
  induction reached with
  | start begins =>
      obtain ⟨env, rfl⟩ := begins
      exact .start ⟨env, trivial, rfl⟩
  | step _ permitted ran ih => exact ih.step permitted ran

/-- What is granted of the buffer is zero. -/
theorem buffer_zeroed (buffered : Buffered build.target pointer size limit total)
    (inplace : build.reallocInplace = true)
    (reached : Reached build (testEnv build.target pointer size limit)
      (bufferOf memory pointer size limit) session) :
    GrantsZeroed (bufferOf memory pointer size limit) session.allocator.trace := by
  refine (backed_reached reached).zeroed (testEnv_lawful buffered) inplace (testEnv_backed buffered) ?_
  rintro _ a ⟨above, below⟩
  exact if_pos ⟨above, below⟩

theorem buffer_spared (buffered : Buffered build.target pointer size limit total)
    (inplace : build.reallocInplace = true)
    (reached : Reached build (testEnv build.target pointer size limit) memory session) {a : Nat}
    (behind : pointer + limit ≤ a) : session.allocator.memory a = memory a := by
  have lawful := testEnv_lawful buffered
  have backed := testEnv_backed buffered
  rcases reached.sound lawful inplace with idle | ⟨heap, serves⟩
  · rw [idle.memory_eq]
  refine serves.fresh a ?_
  have based : session.allocator.baseAddress ≠ Pointer.null :=
    serves.represents.placed.nonnull.ne'
  obtain ⟨-, standing | fallow⟩ := (backed_reached reached).backing lawful inplace backed
  · have base : session.allocator.baseAddress = pointer := standing.reserved
    have space := ((backed_reached reached).provided lawful inplace backed).space based
    rw [base] at space
    by_contra before
    rw [State.unit, base, Nat.not_le] at before
    exact absurd (space a (by omega) before).2 (by omega)
  · exact absurd fallow.null based

end Buffers

/-- The harness expects at the addresses of its allocations what a client of the allocator has
there, each of them once, and knows them as alive. -/
structure Follows (E : Env Unit) {build : Build} (memory : Memory) (harness : Harness build)
    (object : Nat → Option (List UInt8)) : Prop where
  owns : Owns E memory harness.allocator object
  expected : ∀ allocation ∈ harness.allocations, object allocation.1 = some allocation.2
  distinct : (harness.allocations.map Prod.fst).Nodup
  alive : ∀ allocation ∈ harness.allocations, allocation.1 ∈ harness.aliveAddresses

section Calls

variable {build : Build} {E : Env Unit} {memory : Memory} {harness : Harness build}
  {object : Nat → Option (List UInt8)}

theorem call_ok {α : Type} {run : Run build Unit α} {result : α} {s' : AllocatorState build Unit}
    (ran : run harness.allocator = .ok (result, s')) :
    call build run harness = .ok (result, { harness with allocator := s' }) := by
  simp only [call, ran]
  rfl

theorem assert_ok {holds : Bool} (passes : holds = true) :
    assert build holds harness = .ok (⟨⟩, harness) := by
  rw [assert, if_pos passes]
  rfl

theorem unwrap_ok {α : Type} {value : Option α} {a : α} (there : value = some a) :
    unwrap build value harness = .ok (a, harness) := by
  subst there
  rfl

theorem fromRawParts_apply (address length : Nat) :
    fromRawParts build address length harness =
      .ok (slice harness.allocator.memory address length, harness) := rfl

theorem allocation_ok {index : Nat} {here : Nat × List UInt8}
    (there : harness.allocations[index]? = some here) :
    allocation build index harness = .ok (here, harness) :=
  unwrap_ok there

theorem allocation_at (listed : harness.allocations.isEmpty = false) (index : Nat) :
    ∃ pointer data, harness.allocations[index % harness.allocations.length]? = some (pointer, data) := by
  have inside : index % harness.allocations.length < harness.allocations.length :=
    Nat.mod_lt _ (List.length_pos_of_ne_nil (by simpa using listed))
  exact ⟨_, _, List.getElem?_eq_getElem inside⟩

theorem Follows.called {s' : AllocatorState build Unit} (follows : Follows E memory harness object)
    (owns : Owns E memory s' object) :
    Follows E memory { harness with allocator := s' } object :=
  ⟨owns, follows.expected, follows.distinct, follows.alive⟩

theorem Follows.joined {s' : AllocatorState build Unit} {pointer : Nat} {data : List UInt8}
    (follows : Follows E memory harness object) (fresh : object pointer = none)
    (owns : Owns E memory s' (Function.update object pointer (some data))) :
    Follows E memory ⟨s', harness.allocations ++ [(pointer, data)], insert pointer harness.aliveAddresses⟩
      (Function.update object pointer (some data)) := by
  have elsewhere : ∀ allocation ∈ harness.allocations, allocation.1 ≠ pointer := by
    rintro allocation member rfl
    cases fresh.symm.trans (follows.expected allocation member)
  refine ⟨owns, fun allocation member => ?_, ?_, fun allocation member => ?_⟩
  · rcases List.mem_append.mp member with earlier | here
    · rw [Function.update_of_ne (elsewhere allocation earlier)]
      exact follows.expected allocation earlier
    · obtain rfl := List.mem_singleton.mp here
      exact Function.update_self _ _ _
  · rw [List.map_append, List.map_singleton, List.nodup_append]
    refine ⟨follows.distinct, List.nodup_singleton _, fun address member other here => ?_⟩
    obtain ⟨allocation, earlier, rfl⟩ := List.mem_map.mp member
    rw [List.mem_singleton.mp here]
    exact elsewhere allocation earlier
  · rcases List.mem_append.mp member with earlier | here
    · exact Finset.mem_insert_of_mem (follows.alive allocation earlier)
    · obtain rfl := List.mem_singleton.mp here
      exact Finset.mem_insert_self _ _

theorem Follows.left {s' : AllocatorState build Unit} {pointer : Nat} {data : List UInt8}
    {rest : List (Nat × List UInt8)} (follows : Follows E memory harness object)
    (split : harness.allocations.Perm ((pointer, data) :: rest))
    (owns : Owns E memory s' (Function.update object pointer none)) :
    Follows E memory ⟨s', rest, harness.aliveAddresses.erase pointer⟩
      (Function.update object pointer none) := by
  have distinct := (split.map Prod.fst).nodup_iff.mp follows.distinct
  rw [List.map_cons, List.nodup_cons] at distinct
  have kept : ∀ allocation ∈ rest, allocation ∈ harness.allocations ∧ allocation.1 ≠ pointer := by
    intro allocation member
    refine ⟨split.mem_iff.mpr (List.mem_cons_of_mem _ member), ?_⟩
    exact fun same => distinct.1 (List.mem_map.mpr ⟨allocation, member, same⟩)
  refine ⟨owns, fun allocation member => ?_, distinct.2, fun allocation member => ?_⟩
  · obtain ⟨earlier, elsewhere⟩ := kept allocation member
    rw [Function.update_of_ne elsewhere]
    exact follows.expected allocation earlier
  · obtain ⟨earlier, elsewhere⟩ := kept allocation member
    exact Finset.mem_erase.mpr ⟨elsewhere, follows.alive allocation earlier⟩

theorem Follows.replaced {s' : AllocatorState build Unit} {index pointer : Nat} {data data' : List UInt8}
    (follows : Follows E memory harness object)
    (there : harness.allocations[index]? = some (pointer, data))
    (owns : Owns E memory s' (Function.update object pointer (some data'))) :
    Follows E memory { harness with
        allocator := s'
        allocations := harness.allocations.set index (pointer, data') }
      (Function.update object pointer (some data')) := by
  obtain ⟨inside, here⟩ := List.getElem?_eq_some_iff.mp there
  have addresses : (harness.allocations.set index (pointer, data')).map Prod.fst =
      harness.allocations.map Prod.fst := by
    rw [List.map_set]
    refine List.ext_getElem? fun other => ?_
    by_cases same : index = other
    · subst same
      rw [List.getElem?_set_self (by rwa [List.length_map]), List.getElem?_map, there]
      rfl
    · rw [List.getElem?_set_ne same]
  have distinct : ((harness.allocations.set index (pointer, data')).map Prod.fst).Nodup :=
    addresses ▸ follows.distinct
  have renewed : (pointer, data') ∈ harness.allocations.set index (pointer, data') :=
    List.mem_set inside _
  refine ⟨owns, fun allocation member => ?_, distinct, fun allocation member => ?_⟩
  · by_cases same : allocation.1 = pointer
    · obtain rfl := List.inj_on_of_nodup_map distinct member renewed same
      exact Function.update_self _ _ _
    · rw [Function.update_of_ne same]
      rcases List.mem_or_eq_of_mem_set member with earlier | rfl
      · exact follows.expected allocation earlier
      · exact absurd rfl same
  · rcases List.mem_or_eq_of_mem_set member with earlier | rfl
    · exact follows.alive allocation earlier
    · exact follows.alive (pointer, data) (here ▸ List.getElem_mem inside)

variable {total : Nat} (lawful : E.Lawful build.target total) (inplace : build.reallocInplace = true)
  (follows : Follows E memory harness object)
include lawful inplace follows

theorem Follows.reads {pointer : Nat} {data : List UInt8}
    (member : (pointer, data) ∈ harness.allocations) :
    slice harness.allocator.memory pointer data.length = data :=
  (follows.owns.reads lawful inplace (follows.expected _ member)).2.1

theorem Follows.checks {index pointer : Nat} {data : List UInt8}
    (there : harness.allocations[index]? = some (pointer, data)) :
    checkData build index harness = .ok (⟨⟩, harness) := by
  have content := follows.reads lawful inplace (List.mem_of_getElem? there)
  rw [checkData, bind_ok (allocation_ok there)]
  exact (bind_ok (fromRawParts_apply _ _)).trans (assert_ok (by rw [content, beq_self_eq_true]))

theorem alloc_follows {ρ : Type} (rand : Rand64 ρ)
    (granting : ∀ session : Session build Unit, Reached build E memory session →
      GrantsZeroed memory session.allocator.trace) (align size : UInt16) :
    ∃ harness' object', Fuzz.alloc build rand align size E harness = .ok (⟨⟩, harness') ∧
      Follows E memory harness' object' := by
  obtain ⟨k, power, low⟩ : ∃ k, max 1 (nextPowerOfTwo align.toNat) = 2 ^ k ∧ 2 ^ k ≤ 65536 :=
    ⟨_, max_eq_right Nat.one_le_two_pow, nextPowerOfTwo_le align.toNat_lt⟩
  have short : max 1 size.toNat ≤ 65536 := max_le (by decide) size.toNat_lt.le
  obtain ⟨alignSize, admitted⟩ := fromBytesUsize_some build.target low
  obtain ⟨requested, admitted'⟩ := fromBytesUsize_some build.target short
  rw [Fuzz.alloc, power, bind_ok (unwrap_ok admitted), bind_ok (unwrap_ok admitted')]
  rcases follows.owns.allocZeroed lawful inplace granting alignSize requested with
    ⟨s', run, owns⟩ | ⟨pointer, s', bytes, run, aligned, sized, zero, fresh, owns⟩
  · exact ⟨_, object, bind_ok (call_ok run), follows.called owns⟩
  have here : Function.update object pointer (some bytes) pointer = some bytes :=
    Function.update_self _ _ _
  obtain ⟨usable, content, -⟩ := owns.reads lawful inplace here
  have length : (fillSlice rand pointer bytes.length).length = bytes.length := fillRest_length _ _ _
  have written := owns.pokes lawful inplace here
    (show 0 + (fillSlice rand pointer bytes.length).length ≤ bytes.length by omega)
  rw [overwritten_tail (by omega), List.take_zero, List.nil_append, Function.update_idem] at written
  have reread := (written.reads lawful inplace (Function.update_self _ _ _)).2.1
  rw [length] at reread
  have covers : max 1 size.toNat ≤ bytes.length := by
    rw [sized]
    exact (fromBytesUsize_eq admitted').1
  have multiple : pointer % 2 ^ k = 0 := Nat.mod_eq_zero_of_dvd
    ((power_dvd_bytes low admitted).trans (Nat.dvd_of_mod_eq_zero aligned))
  have zeros : (slice s'.memory pointer bytes.length).all (· == 0) = true := by
    rw [content, List.all_eq_true]
    exact fun byte member => beq_iff_eq.mpr (zero byte member)
  refine ⟨_, _, ?_, follows.joined fresh written⟩
  refine (bind_ok (call_ok run)).trans ?_
  dsimp only
  rw [bind_ok (assert_ok (beq_iff_eq.mpr multiple)), bind_ok (call_ok usable),
    bind_ok (assert_ok (decide_eq_true covers)), bind_ok (fromRawParts_apply _ _),
    bind_ok (assert_ok zeros), copyFromSlice, bind_ok (modify_apply _ _),
    bind_ok (fromRawParts_apply _ _), modify_apply]
  simp only [Nat.add_zero] at reread ⊢
  rw [reread]

theorem free_follows (index : Nat) :
    ∃ harness' object', Fuzz.free build index E harness = .ok (⟨⟩, harness') ∧
      Follows E memory harness' object' := by
  rw [Fuzz.free, bind_ok (get_apply harness)]
  cases listed : harness.allocations.isEmpty with
  | true => exact ⟨harness, object, rfl, follows⟩
  | false =>
      have inside : index % harness.allocations.length < harness.allocations.length :=
        Nat.mod_lt _ (List.length_pos_of_ne_nil (by simpa using listed))
      obtain ⟨rest, removed, split⟩ := swapRemove_ok inside
      generalize harness.allocations[index % harness.allocations.length] = allocation at removed split
      obtain ⟨pointer, data⟩ := allocation
      have member : (pointer, data) ∈ harness.allocations := split.mem_iff.mpr List.mem_cons_self
      have content := follows.reads lawful inplace member
      obtain ⟨s', run, owns⟩ := follows.owns.free lawful inplace (follows.expected _ member)
      refine ⟨_, _, ?_, follows.left split owns⟩
      refine (bind_ok (lift_ok removed harness)).trans ?_
      dsimp only
      rw [bind_ok (modify_apply _ _), bind_ok (assert_ok (decide_eq_true (follows.alive _ member))),
        bind_ok (modify_apply _ _), bind_ok (fromRawParts_apply _ _),
        bind_ok (assert_ok (beq_iff_eq.mpr content))]
      exact call_ok run

theorem shrink_follows (index : Nat) (size : UInt16) :
    ∃ harness' object', Fuzz.shrink build index size E harness = .ok (⟨⟩, harness') ∧
      Follows E memory harness' object' := by
  have short : size.toNat + 1 ≤ 65536 := size.toNat_lt
  obtain ⟨units, admitted⟩ := fromBytesUsize_some build.target short
  rw [Fuzz.shrink, bind_ok (unwrap_ok admitted), bind_ok (get_apply harness)]
  cases listed : harness.allocations.isEmpty with
  | true => exact ⟨harness, object, rfl, follows⟩
  | false =>
      obtain ⟨pointer, data, there⟩ := allocation_at listed index
      have held : object pointer = some data := follows.expected _ (List.mem_of_getElem? there)
      obtain ⟨covers, tight, -⟩ := fromBytesUsize_eq admitted
      obtain ⟨s', run, owns⟩ := follows.owns.shrinkInplace lawful inplace held
        (show units ≠ 0 by omega) (show units < 2 ^ sizeBits - 1 by simp only [sizeBits]; omega)
      rw [← bytes_eq (show units < unitLimit by simp only [unitLimit]; omega)] at owns
      have follows' := follows.replaced there owns
      obtain ⟨inside, -⟩ := List.getElem?_eq_some_iff.mp there
      have again := follows'.checks lawful inplace (List.getElem?_set_self inside)
      refine ⟨_, _, ?_, follows'⟩
      refine (bind_ok (follows.checks lawful inplace there)).trans ?_
      rw [bind_ok (allocation_ok there)]
      dsimp only
      have ran : call build (shrinkInplace build E pointer units) { harness with
          allocations := harness.allocations.set (index % harness.allocations.length)
            (pointer, data.take (Size.bytes units)) } = .ok ((), _) := call_ok run
      rw [expect, bind_ok (modify_apply _ _), bind_ok ran]
      exact again

theorem grow_follows {ρ : Type} (rand : Rand64 ρ) (index : Nat) (size : UInt16) :
    ∃ harness' object', Fuzz.grow build rand index size E harness = .ok (⟨⟩, harness') ∧
      Follows E memory harness' object' := by
  have short : size.toNat + 1 ≤ 65536 := size.toNat_lt
  obtain ⟨units, admitted⟩ := fromBytesUsize_some build.target short
  rw [Fuzz.grow, bind_ok (unwrap_ok admitted), bind_ok (get_apply harness)]
  cases listed : harness.allocations.isEmpty with
  | true => exact ⟨harness, object, rfl, follows⟩
  | false =>
      obtain ⟨pointer, data, there⟩ := allocation_at listed index
      have held : object pointer = some data := follows.expected _ (List.mem_of_getElem? there)
      rcases follows.owns.growInplace lawful inplace held with
        ⟨s', run, owns⟩ | ⟨usable, s', more, run, sized, owns⟩
      · exact ⟨_, object, (bind_ok (allocation_ok there)).trans (bind_ok (call_ok run)),
          follows.called owns⟩
      have here : Function.update object pointer (some (data ++ more)) pointer = some (data ++ more) :=
        Function.update_self _ _ _
      obtain ⟨-, -, within⟩ := owns.reads lawful inplace here
      have bytes : Size.bytes usable = data.length + more.length := by
        rw [bytes_eq (by have := lawful.small; omega), ← sized, List.length_append]
      by_cases same : data.length = Size.bytes usable
      · obtain rfl : more = [] := List.eq_nil_of_length_eq_zero (by omega)
        rw [List.append_nil, ← held, Function.update_eq_self] at owns
        refine ⟨_, object, (bind_ok (allocation_ok there)).trans ((bind_ok (call_ok run)).trans ?_),
          follows.called owns⟩
        dsimp only
        rw [if_pos same]
        rfl
      have length := fillRest_length rand (Size.bytes usable - data.length) (rand.new (pointer ^^^ 170))
      have ordered : data.length ≤ Size.bytes usable := by omega
      -- the part behind the data, which is filled
      generalize filled : fillRest rand (Size.bytes usable - data.length) (rand.new (pointer ^^^ 170)) =
        new at length
      have fits : data.length + new.length = (data ++ more).length := by
        rw [length, List.length_append]
        omega
      have written := owns.pokes lawful inplace here fits.le
      rw [overwritten_tail fits, List.take_left, Function.update_idem] at written
      have follows' := follows.replaced there written
      obtain ⟨inside, -⟩ := List.getElem?_eq_some_iff.mp there
      refine ⟨_, _, (bind_ok (allocation_ok there)).trans ((bind_ok (call_ok run)).trans ?_), follows'⟩
      dsimp only
      rw [if_neg same, fillSlice, filled, bind_ok (assert_ok (decide_eq_true ordered)), copyFromSlice,
        bind_ok (modify_apply _ _), expect, bind_ok (modify_apply _ _)]
      exact follows'.checks lawful inplace (List.getElem?_set_self inside)

theorem perform_follows {ρ : Type} (rand : Rand64 ρ)
    (granting : ∀ session : Session build Unit, Reached build E memory session →
      GrantsZeroed memory session.allocator.trace) (op : Op) :
    ∃ harness' object', perform build rand E op harness = .ok (⟨⟩, harness') ∧
      Follows E memory harness' object' := by
  cases op with
  | alloc align size => exact alloc_follows lawful inplace follows rand granting align size
  | free index => exact free_follows lawful inplace follows index
  | shrink index size => exact shrink_follows lawful inplace follows index size
  | grow index size => exact grow_follows lawful inplace follows rand index size

omit follows in
/-- Any operations, one after the other. -/
theorem forM_follows {ρ : Type} (rand : Rand64 ρ)
    (granting : ∀ session : Session build Unit, Reached build E memory session →
      GrantsZeroed memory session.allocator.trace) (ops : List Op)
    (follows : Follows E memory harness object) :
    ∃ harness' object', ops.forM (perform build rand E) harness = .ok (⟨⟩, harness') ∧
      Follows E memory harness' object' := by
  induction ops generalizing harness object with
  | nil => exact ⟨harness, object, rfl, follows⟩
  | cons op ops ih =>
      obtain ⟨harness₁, object₁, performed, follows₁⟩ :=
        perform_follows lawful inplace follows rand granting op
      obtain ⟨harness', object', rest, follows'⟩ := ih follows₁
      exact ⟨harness', object', (bind_ok performed).trans rest, follows'⟩

end Calls

section Target

variable {build : Build} {ρ : Type} {pointer size limit total : Nat}

theorem Follows.start {E : Env Unit} (memory : Memory) :
    Follows E (bufferOf memory pointer size limit) (Harness.start build pointer size limit memory)
      fun _ => none where
  owns := .start ()
  expected _ member := absurd member (List.not_mem_nil)
  distinct := List.nodup_nil
  alive _ member := absurd member (List.not_mem_nil)

/-- No operations that a fuzzer may come up with make the target panic: each allocation is
aligned, large enough and zeroed, memory agrees with what was written to it, and the end of
the buffer is what it was. -/
theorem fuzz_passes (buffered : Buffered build.target pointer size limit total)
    (inplace : build.reallocInplace = true) (rand : Rand64 ρ) (memory : Memory) (ops : List Op) :
    ∃ harness', fuzzTarget build rand pointer size limit ops
      (Harness.start build pointer size limit memory) = .ok (⟨⟩, harness') := by
  have lawful := testEnv_lawful buffered
  obtain ⟨harness₁, object, ran, follows⟩ := forM_follows lawful inplace rand
    (fun session => buffer_zeroed buffered inplace) ops (Follows.start memory)
  obtain ⟨session, reached, same, -⟩ := follows.owns
  have spared : (slice harness₁.allocator.memory (pointer + limit) (size - limit)).all (· == sentinel) =
      true := by
    rw [List.all_eq_true]
    intro byte member
    obtain ⟨index, inside, rfl⟩ := mem_slice.mp member
    rw [← same, buffer_spared buffered inplace reached (Nat.le_add_right _ _), beq_iff_eq, bufferOf,
      fill_outside _ _ _ _ _ (Or.inr (Nat.le_add_right _ _))]
    exact if_pos ⟨by omega, by omega⟩
  have dropped : call build (drop build (testEnv build.target pointer size limit)) harness₁ =
      .ok ((), _) := call_ok rfl
  exact ⟨_, (bind_ok ran).trans ((bind_ok dropped).trans
    ((bind_ok (fromRawParts_apply _ _)).trans (assert_ok spared)))⟩

def sampleRand : Rand64 Nat where
  new seed := seed
  randU64 state := (UInt64.ofNat (3 * state + 1), state + 1)

/-- The buffer of the target, with operations of each kind. -/
theorem fuzz_passes_sample : ∃ harness', fuzzTarget sampleBuild sampleRand 1048576 16384 2048
    [.alloc 64 40, .grow 0 90, .alloc 1 10, .shrink 0 50, .free 1]
    (Harness.start sampleBuild 1048576 16384 2048 fun _ => 0) = .ok (⟨⟩, harness') := by
  have buffered : Buffered .x86_64 1048576 16384 2048 8192 :=
    ⟨by decide, by decide, by decide, by decide, by decide, by decide, by decide, by decide⟩
  exact fuzz_passes buffered rfl sampleRand _ _

end Target

end Picoalloc.Fuzz
