import Picoalloc.HeapInvariant

/-!
Two allocators that represent the same heap, over memories and environments of their own
and at bases that are aligned alike. What an operation decides is a function of the heap,
so the two decide the same, ask for the same memory and represent the same heap again.
-/

namespace Picoalloc
open CheckedMachine ByteMemory IntrusiveLists Tilings

variable {build : Build} {σ τ : Type} {E : Env σ} {F : Env τ} {total largest : Nat}
  {R : σ → τ → Prop} {s s' : AllocatorState build σ} {t t' : AllocatorState build τ} {heap : Heap}

/-- Environments that answer alike: bases are null together and else congruent, and a
request for memory is answered by its size. The relation `R` carries what they remember. -/
structure Env.Agrees (E : Env σ) (F : Env τ) (modulus : Nat) (R : σ → τ → Prop) : Prop where
  reserve : ∀ e f, R e f →
    ((E.allocateAddressSpace e).1 = Pointer.null ↔ (F.allocateAddressSpace f).1 = Pointer.null) ∧
      (E.allocateAddressSpace e).1 % modulus = (F.allocateAddressSpace f).1 % modulus ∧
      R (E.allocateAddressSpace e).2 (F.allocateAddressSpace f).2
  expand : ∀ e f base base' size, R e f →
    (E.expandMemoryUntil e base size).1 = (F.expandMemoryUntil f base' size).1 ∧
      R (E.expandMemoryUntil e base size).2 (F.expandMemoryUntil f base' size).2
  release : ∀ e f base base', R e f → R (E.freeAddressSpace e base) (F.freeAddressSpace f base')

/-- Representations of one heap at bases that no alignment up to `largest` tells apart. -/
structure Twins (R : σ → τ → Prop) (total largest : Nat) (s : AllocatorState build σ)
    (t : AllocatorState build τ) (heap : Heap) : Prop where
  left : Represents total s heap
  right : Represents total t heap
  phase : s.baseAddress % (32 * largest) = t.baseAddress % (32 * largest)
  env : R s.env t.env

def Together {α β : Type} (R : σ → τ → Prop) (total largest : Nat) (alike : α → β → Heap → Prop)
    (run : Run build σ α) (run' : Run build τ β) (s : AllocatorState build σ)
    (t : AllocatorState build τ) : Prop :=
  ∃ a s' b t' heap', run s = .ok (a, s') ∧ run' t = .ok (b, t') ∧
    Twins R total largest s' t' heap' ∧ s'.baseAddress = s.baseAddress ∧
    t'.baseAddress = t.baseAddress ∧ alike a b heap'

section Rules

variable {α β γ δ : Type} {alike : α → β → Heap → Prop} {alike' : γ → δ → Heap → Prop}
  {run : Run build σ α} {run' : Run build τ β}

/-- A heap is determined by any state that represents it. -/
theorem Represents.unique {heap' : Heap} (represents : Represents total s heap)
    (represents' : Represents total s heap') : heap' = heap := by
  have chunks : heap'.chunks = heap.chunks := represents'.chunks.symm.trans represents.chunks
  have space : heap'.allocatedSpace = heap.allocatedSpace :=
    represents'.space.trans represents.space.symm
  have bins : heap'.bins = heap.bins := by
    funext bin
    by_cases small : bin < (Bins.binConfig build.target).binCount
    · have same := (represents'.freeList small (Nat.le_refl _)).symm.trans
        (represents.freeList small (Nat.le_refl _))
      exact (List.map_injective_iff.mpr fun p q => unit_inj.mp) same
    · have outside : ∀ {heap : Heap}, Represents total s heap → heap.bins bin = [] := by
        intro heap represents
        by_contra occupied
        exact small (represents.index.bin_lt occupied)
      rw [outside represents, outside represents']
  cases heap
  cases heap'
  simp_all

theorem Together.bind {next : α → Run build σ γ} {next' : β → Run build τ δ}
    (first : Together R total largest alike run run' s t)
    (rest : ∀ a b s' t' heap', Twins R total largest s' t' heap' → s'.baseAddress = s.baseAddress →
      t'.baseAddress = t.baseAddress → alike a b heap' →
      Together R total largest alike' (next a) (next' b) s' t') :
    Together R total largest alike' (run >>= next) (run' >>= next') s t := by
  obtain ⟨a, s₁, b, t₁, heap₁, ran, ran', twins, base, base', results⟩ := first
  obtain ⟨c, s₂, d, t₂, heap₂, later, later', twins₂, base₂, base₂', results₂⟩ :=
    rest a b s₁ t₁ heap₁ twins base base' results
  exact ⟨c, s₂, d, t₂, heap₂, (bind_ok ran).trans later, (bind_ok ran').trans later', twins₂,
    base₂.trans base, base₂'.trans base', results₂⟩

theorem Together.weaken {weaker : α → β → Heap → Prop}
    (together : Together R total largest alike run run' s t)
    (implies : ∀ a b heap', alike a b heap' → weaker a b heap') :
    Together R total largest weaker run run' s t := by
  obtain ⟨a, s₁, b, t₁, heap₁, ran, ran', twins, base, base', results⟩ := together
  exact ⟨a, s₁, b, t₁, heap₁, ran, ran', twins, base, base', implies a b heap₁ results⟩

theorem Twins.pure (twins : Twins R total largest s t heap) {a : α} {b : β} (results : alike a b heap) :
    Together R total largest alike (pure a : Run build σ α) (pure b : Run build τ β) s t :=
  ⟨a, s, b, t, heap, rfl, rfl, twins, rfl, rfl, results⟩

theorem Together.congr {other : Run build σ α} {other' : Run build τ β} (same : other s = run s)
    (same' : other' t = run' t) (together : Together R total largest alike run run' s t) :
    Together R total largest alike other other' s t := by
  rw [Together, same, same']
  exact together

end Rules

section Requests

theorem Twins.ask (agrees : E.Agrees F (32 * largest) R) (twins : Twins R total largest s t heap)
    (need : Nat) : (s.ask E need).1 = (t.ask F need).1 ∧ R (s.ask E need).2.env (t.ask F need).2.env := by
  have space : s.allocatedSpace = t.allocatedSpace := twins.left.space.symm.trans twins.right.space
  rw [State.ask, State.ask, space]
  by_cases short : t.allocatedSpace < need
  · rw [if_pos short, if_pos short]
    exact agrees.expand _ _ _ _ need twins.env
  · rw [if_neg short, if_neg short]
    exact ⟨rfl, twins.env⟩

theorem Twins.refused (agrees : E.Agrees F (32 * largest) R) (twins : Twins R total largest s t heap)
    {need : Nat} (inside : need ≤ total) (declined : (s.ask E need).1 = false) :
    Twins R total largest (s.ask E need).2 (t.ask F need).2 heap := by
  obtain ⟨answer, env⟩ := twins.ask agrees need
  constructor
  · have asked := twins.left.asked (E := E) inside
    rwa [declined, if_neg Bool.false_ne_true] at asked
  · have asked := twins.right.asked (E := F) inside
    rwa [← answer, declined, if_neg Bool.false_ne_true] at asked
  · rw [ask_baseAddress, ask_baseAddress]
    exact twins.phase
  · exact env

variable {α β : Type} {alike : Option α → Option β → Heap → Prop} {kept kept' : Nat → Chunk → Prop}
  {run : Run build σ (Option α)} {run' : Run build τ (Option β)}
  {finish : AllocatorState build σ → AllocatorState build σ}
  {finish' : AllocatorState build τ → AllocatorState build τ}

def Finishes (total : Nat) (heap : Heap) (base : Nat)
    (finish : AllocatorState build σ → AllocatorState build σ) : Prop :=
  ∀ s, Represents total s heap → s.baseAddress = base →
    Represents total (finish s) heap ∧ (finish s).baseAddress = s.baseAddress ∧ (finish s).env = s.env

/-- Operations that decide the same settle together. -/
theorem Settles.together (agrees : E.Agrees F (32 * largest) R)
    (twins : Twins R total largest s t heap) {need : Nat} {a : α} {b : β} {heap' : Heap}
    (settles : Settles E total kept run finish s (some (need, a, heap')))
    (settles' : Settles F total kept' run' finish' t (some (need, b, heap')))
    (ends : Finishes total heap' s.baseAddress finish)
    (ends' : Finishes total heap' t.baseAddress finish')
    (failure : alike none none heap) (success : alike (some a) (some b) heap') :
    Together R total largest alike run run' s t := by
  obtain ⟨inside, settled⟩ := settles
  obtain ⟨-, settled'⟩ := settles'
  obtain ⟨answer, env⟩ := twins.ask agrees need
  rw [← answer] at settled'
  cases granted : (s.ask E need).1 with
  | false =>
      rw [granted, if_neg Bool.false_ne_true] at settled settled'
      exact ⟨none, _, none, _, heap, settled, settled', twins.refused agrees inside granted,
        ask_baseAddress E s need, ask_baseAddress F t need, failure⟩
  | true =>
      rw [granted, if_pos rfl] at settled settled'
      obtain ⟨s₁, ran, represents, frame⟩ := settled
      obtain ⟨t₁, ran', represents', frame'⟩ := settled'
      have base := frame.baseAddress.trans (ask_baseAddress E s need)
      have base' := frame'.baseAddress.trans (ask_baseAddress F t need)
      obtain ⟨represents, kept, envKept⟩ := ends s₁ represents base
      obtain ⟨represents', kept', envKept'⟩ := ends' t₁ represents' base'
      refine ⟨some a, _, some b, _, heap', ran, ran', ⟨represents, represents', ?_, ?_⟩,
        kept.trans base, kept'.trans base', success⟩
      · rw [kept, kept', base, base']
        exact twins.phase
      · rw [envKept, envKept', frame.env, frame'.env]
        exact env

end Requests

section Operations

variable {place size align newSize : Nat}

def SameOffset (s : AllocatorState build σ) (t : AllocatorState build τ) (a b : Option Nat) : Prop :=
  ∃ place : Option Nat, a = place.map s.unit ∧ b = place.map t.unit

theorem Twins.phases (twins : Twins R total largest s t heap) (divides : align ∣ largest) :
    s.baseAddress / 32 % align = t.baseAddress / 32 % align := by
  have same := congrArg (· / 32) twins.phase
  simp only [Nat.mod_mul_right_div_self] at same
  rw [← Nat.mod_mod_of_dvd _ divides, same, Nat.mod_mod_of_dvd _ divides]

theorem chooseFit_congr (target : Target) {phase phase' : Nat} (positive : 0 < align)
    (same : phase % align = phase' % align) (size : Nat) (heap : Heap) :
    heap.chooseFit target phase align size = heap.chooseFit target phase' align size := by
  have aligned : ∀ x, alignUp phase align x = alignUp phase' align x := fun x =>
    alignUp_congr phase x positive same
  simp only [Heap.chooseFit, cutOf, aligned]

inductive AllocAlike (s : AllocatorState build σ) (t : AllocatorState build τ) (heap : Heap)
    (size : Nat) : Option Nat → Option Nat → Heap → Prop where
  | refused {heap'} : AllocAlike s t heap size none none heap'
  | granted {place heap'} (here : heap'.Allots place (size + headerSize))
      (apart : ∀ p n, heap.Allots p n → heap'.Allots p n ∧ p ≠ place) :
      AllocAlike s t heap size (some (s.unit (place + headerSize)))
        (some (t.unit (place + headerSize))) heap'

theorem AllocAlike.sameOffset {a b : Option Nat} {heap' : Heap}
    (results : AllocAlike s t heap size a b heap') : SameOffset s t a b := by
  cases results with
  | refused => exact ⟨none, rfl, rfl⟩
  | granted => exact ⟨some _, rfl, rfl⟩

theorem zeroed_finishes {base : Nat} (here : heap.Allots place (size + headerSize)) (zeroMemory : Bool) :
    Finishes total heap base (fun s : AllocatorState build σ =>
      s.zeroed zeroMemory (base + 32 * (place + headerSize)) (32 * size)) := by
  rintro s represents rfl
  have overwritten := zeroed_overwritten zeroMemory place size s
  exact ⟨represents.overwritten here overwritten, overwritten.baseAddress, overwritten.env⟩

theorem allocInitialized_together (agrees : E.Agrees F (32 * largest) R)
    (constant : ∀ e, E.totalSpace e = total) (constant' : ∀ f, F.totalSpace f = total)
    (twins : Twins R total largest s t heap) {k : Nat} (power : align = 2 ^ k)
    (divides : align ∣ largest) (isCalloc : Bool) :
    Together R total largest (AllocAlike s t heap size) (allocInitialized build E align size isCalloc)
      (allocInitialized build F align size isCalloc) s t := by
  have positive : 0 < align := power ▸ Nat.two_pow_pos k
  have same := chooseFit_congr build.target positive (twins.phases divides) size heap
  cases chosen : heap.chooseFit build.target (s.baseAddress / 32) align size with
  | none =>
      have chosen' := same.symm.trans chosen
      exact ⟨none, s, none, t, heap,
        allocInitialized_none constant twins.left positive isCalloc chosen,
        allocInitialized_none constant' twins.right positive isCalloc chosen', twins, rfl, rfl, .refused⟩
  | some fit =>
      have settles := allocInitialized_some (E := E) constant twins.left power isCalloc chosen
      have settles' := allocInitialized_some (E := F) constant' twins.right power isCalloc
        (same.symm.trans chosen)
      obtain ⟨valid, limit⟩ := chooseFit_valid twins.left.valid chosen
      have pieces := valid.pieces positive
      have allots := fun p n => Heap.allocate_allots (p := p) (n := n) twins.left.valid valid pieces
      have here := (allots _ _).mpr (Or.inl ⟨rfl, rfl⟩)
      rw [pieces.behind] at settles settles'
      apply settles.together agrees twins settles' (zeroed_finishes here _) (zeroed_finishes here _)
      · exact .refused
      · apply AllocAlike.granted here
        intro p n there
        exact ⟨(allots p n).mpr (Or.inr there), valid.fresh pieces twins.left.valid there⟩

theorem alloc_together (agrees : E.Agrees F (32 * largest) R)
    (constant : ∀ e, E.totalSpace e = total) (constant' : ∀ f, F.totalSpace f = total)
    (twins : Twins R total largest s t heap) (divides : isPowerOfTwo align = true → align ∣ largest)
    (isCalloc : Bool) (size : Nat) :
    Together R total largest (AllocAlike s t heap size) (allocImpl build E align size isCalloc)
      (allocImpl build F align size isCalloc) s t := by
  by_cases rejected : align = 0 ∨ (!isPowerOfTwo align) = true
  · rw [allocImpl, allocImpl, if_pos rejected, if_pos rejected]
    exact twins.pure .refused
  have isPower : isPowerOfTwo align = true := by simpa using (not_or.mp rejected).2
  obtain ⟨k, power⟩ := isPowerOfTwo_iff.mp isPower
  refine Together.congr ?_ ?_
    (allocInitialized_together agrees constant constant' twins power (divides isPower) isCalloc)
  · rw [allocImpl, if_neg rejected, bind_ok (initializeAllocator_again twins.left.placed),
      if_neg (show ¬ (!true) = true from Bool.false_ne_true)]
  · rw [allocImpl, if_neg rejected, bind_ok (initializeAllocator_again twins.right.placed),
      if_neg (show ¬ (!true) = true from Bool.false_ne_true)]

theorem Twins.framed {heap' : Heap} {touched touched' : Nat → Prop}
    (twins : Twins R total largest s t heap) (represents : Represents total s' heap')
    (represents' : Represents total t' heap') (frame : Frame touched s s') (frame' : Frame touched' t t') :
    Twins R total largest s' t' heap' where
  left := represents
  right := represents'
  phase := by
    rw [frame.baseAddress, frame'.baseAddress]
    exact twins.phase
  env := by
    rw [frame.env, frame'.env]
    exact twins.env

theorem free_together (constant : ∀ e, E.totalSpace e = total) (constant' : ∀ f, F.totalSpace f = total)
    (twins : Twins R total largest s t heap) (here : heap.Allots place size) :
    Together R total largest (fun _ _ heap' => heap' = heap.free build.target place)
      (free build E (s.unit (place + headerSize))) (free build F (t.unit (place + headerSize))) s t := by
  obtain ⟨before, after, chunks, rfl⟩ := allots_split here
  obtain ⟨s', run, represents, frame⟩ := free_ok (E := E) constant twins.left chunks
  obtain ⟨t', run', represents', frame'⟩ := free_ok (E := F) constant' twins.right chunks
  exact ⟨(), s', (), t', _, run, run', twins.framed represents represents' frame frame',
    frame.baseAddress, frame'.baseAddress, rfl⟩

theorem shrink_together (constant : ∀ e, E.totalSpace e = total)
    (constant' : ∀ f, F.totalSpace f = total) (twins : Twins R total largest s t heap)
    (here : heap.Allots place size) (bound : newSize + headerSize < 2 ^ sizeBits) :
    Together R total largest (fun _ _ _ => True)
      (shrinkInplace build E (s.unit (place + headerSize)) newSize)
      (shrinkInplace build F (t.unit (place + headerSize)) newSize) s t := by
  by_cases empty : newSize = 0
  · subst empty
    obtain ⟨_, s', _, t', heap', run, run', twins', base, base', -⟩ :=
      free_together (E := E) (F := F) constant constant' twins here
    exact ⟨(), s', (), t', heap', run, run', twins', base, base', trivial⟩
  obtain ⟨before, after, chunks, rfl⟩ := allots_split here
  obtain ⟨s', run, represents, frame⟩ :=
    shrinkInplace_ok (E := E) constant twins.left chunks empty bound
  obtain ⟨t', run', represents', frame'⟩ :=
    shrinkInplace_ok (E := F) constant' twins.right chunks empty bound
  exact ⟨(), s', (), t', _, run, run', twins.framed represents represents' frame frame',
    frame.baseAddress, frame'.baseAddress, trivial⟩

theorem grow_together (agrees : E.Agrees F (32 * largest) R)
    (constant : ∀ e, E.totalSpace e = total) (constant' : ∀ f, F.totalSpace f = total)
    (twins : Twins R total largest s t heap) (here : heap.Allots place size) (newSize : Nat) :
    Together R total largest (fun a b heap' => a = b ∧ (a = none → heap' = heap))
      (growInplace build E (s.unit (place + headerSize)) newSize)
      (growInplace build F (t.unit (place + headerSize)) newSize) s t := by
  obtain ⟨before, after, chunks, rfl⟩ := allots_split here
  have settles := growInplace_ok (E := E) constant twins.left chunks newSize
  have settles' := growInplace_ok (E := F) constant' twins.right chunks newSize
  cases decision : heap.growth build.target (span Chunk.size before) newSize with
  | none =>
      rw [decision] at settles settles'
      exact ⟨none, s, none, t, heap, settles, settles', twins, rfl, rfl, rfl, fun _ => rfl⟩
  | some decided =>
      obtain ⟨need, usable, heap'⟩ := decided
      rw [decision] at settles settles'
      apply settles.together agrees twins settles'
      · exact fun s represents _ => ⟨represents, rfl, rfl⟩
      · exact fun t represents _ => ⟨represents, rfl, rfl⟩
      · exact ⟨rfl, fun _ => rfl⟩
      · exact ⟨rfl, fun impossible => nomatch impossible⟩

end Operations

section Reallocation

variable {place size place' size' align newSize length : Nat}

theorem unit_congr (base : s'.baseAddress = s.baseAddress) (place : Nat) : s'.unit place = s.unit place := by
  rw [State.unit, State.unit, base]

theorem usable_together (twins : Twins R total largest s t heap) (here : heap.Allots place size) :
    Together R total largest (fun a b heap' => a = size - headerSize ∧ b = size - headerSize ∧ heap' = heap)
      (usableSizeImpl build (s.unit (place + headerSize)))
      (usableSizeImpl build (t.unit (place + headerSize))) s t :=
  ⟨_, s, _, t, heap, usableSizeImpl_ok twins.left here, usableSizeImpl_ok twins.right here, twins, rfl,
    rfl, rfl, rfl, rfl⟩

theorem copy_together (length : Nat) (twins : Twins R total largest s t heap) (source : heap.Allots place size)
    (destination : heap.Allots place' size') (different : place ≠ place')
    (fits : length + headerSize ≤ size) (room : length + headerSize ≤ size') :
    Together R total largest (fun _ _ heap' => heap' = heap)
      (copyPayload build (s.unit (place + headerSize)) (s.unit (place' + headerSize)) (32 * length))
      (copyPayload build (t.unit (place + headerSize)) (t.unit (place' + headerSize)) (32 * length))
      s t := by
  obtain ⟨s', run, written, -, -⟩ := copyPayload_ok twins.left source destination different fits room
  obtain ⟨t', run', written', -, -⟩ := copyPayload_ok twins.right source destination different fits room
  refine ⟨(), s', (), t', heap, run, run', ⟨twins.left.overwritten destination written,
    twins.right.overwritten destination written', ?_, ?_⟩, written.baseAddress, written'.baseAddress, rfl⟩
  · rw [written.baseAddress, written'.baseAddress]
    exact twins.phase
  · rw [written.env, written'.env]
    exact twins.env

theorem reallocMove_together (agrees : E.Agrees F (32 * largest) R)
    (constant : ∀ e, E.totalSpace e = total) (constant' : ∀ f, F.totalSpace f = total)
    (twins : Twins R total largest s t heap) (here : heap.Allots place size)
    (divides : isPowerOfTwo align = true → align ∣ largest) (larger : size ≤ newSize + headerSize) :
    Together R total largest (fun a b _ => SameOffset s t a b)
      (reallocMove build E (s.unit (place + headerSize)) align newSize (size - headerSize))
      (reallocMove build F (t.unit (place + headerSize)) align newSize (size - headerSize)) s t := by
  have wide := twins.left.valid.positive _ (tileAt_mem here)
  have granted := (twins.left.materialized here).2 rfl
  have within := twins.left.placed.within
  have small := twins.left.placed.small
  have bytes : Size.bytes (size - headerSize) = 32 * (size - headerSize) :=
    bytes_eq (by simp only [unitLimit] at *; omega)
  apply (alloc_together agrees constant constant' twins divides false _).bind
  rintro _ _ s₁ t₁ heap₁ twins₁ base base' (_ | ⟨new, apart⟩)
  · exact twins₁.pure ⟨none, rfl, rfl⟩
  obtain ⟨source, different⟩ := apart _ _ here
  have copied := copy_together (size - headerSize) twins₁ source new different
    (by simp only [headerSize] at *; omega) (by omega)
  rw [unit_congr base, unit_congr base, unit_congr base', unit_congr base', ← bytes] at copied
  apply copied.bind
  rintro _ _ s₂ t₂ _ twins₂ base₂ base₂' rfl
  have freed := free_together (E := E) (F := F) constant constant' twins₂ source
  rw [unit_congr (base₂.trans base), unit_congr (base₂'.trans base')] at freed
  apply freed.bind
  intro _ _ s₃ t₃ heap₃ twins₃ _ _ _
  exact twins₃.pure ⟨some _, rfl, rfl⟩

theorem realloc_together (agrees : E.Agrees F (32 * largest) R) (inplace : build.reallocInplace = true)
    (constant : ∀ e, E.totalSpace e = total) (constant' : ∀ f, F.totalSpace f = total)
    (twins : Twins R total largest s t heap) (here : heap.Allots place size)
    (divides : isPowerOfTwo align = true → align ∣ largest) (newSize : Nat) :
    Together R total largest (fun a b _ => SameOffset s t a b)
      (realloc build E (s.unit (place + headerSize)) align newSize)
      (realloc build F (t.unit (place + headerSize)) align newSize) s t := by
  have wide := twins.left.valid.positive _ (tileAt_mem here)
  have granted := (twins.left.materialized here).2 rfl
  have within := twins.left.placed.within
  have small := twins.left.placed.small
  apply (usable_together twins here).bind
  rintro _ _ s₁ t₁ _ twins₁ base base' ⟨rfl, rfl, rfl⟩
  have unit := unit_congr base
  have unit' := unit_congr base'
  have same : SameOffset s t (some (s₁.unit (place + headerSize))) (some (t₁.unit (place + headerSize))) :=
    ⟨some (place + headerSize), congrArg some (unit _), congrArg some (unit' _)⟩
  rw [← unit, ← unit']
  -- The cases are those of `realloc`; each compares sizes, which twins have in common.
  by_cases equal : newSize = size - headerSize
  · rw [if_pos equal, if_pos equal]
    exact twins₁.pure same
  rw [if_neg equal, if_neg equal]
  by_cases empty : newSize = 0
  · have isEmpty : Size.isEmpty newSize = true := by simp [Size.isEmpty, empty]
    rw [if_pos isEmpty, if_pos isEmpty]
    apply (free_together constant constant' twins₁ here).bind
    intro _ _ s₂ t₂ heap₂ twins₂ _ _ _
    exact twins₂.pure ⟨none, rfl, rfl⟩
  have nonempty : ¬ Size.isEmpty newSize = true := by simp [Size.isEmpty, empty]
  rw [if_neg nonempty, if_neg nonempty, if_pos inplace, if_pos inplace]
  by_cases less : newSize < size - headerSize
  · rw [if_pos less, if_pos less]
    have bound : newSize + headerSize < 2 ^ sizeBits := by
      simp only [headerSize, sizeBits, unitLimit] at *
      omega
    apply (shrink_together constant constant' twins₁ here bound).bind
    intro _ _ s₂ t₂ heap₂ twins₂ _ _ _
    exact twins₂.pure same
  · rw [if_neg less, if_neg less]
    apply (grow_together agrees constant constant' twins₁ here newSize).bind
    rintro grown _ s₂ t₂ heap₂ twins₂ base₂ base₂' ⟨rfl, failed⟩
    cases grown with
    | some usable => exact twins₂.pure same
    | none =>
        obtain rfl := failed rfl
        rw [← unit_congr base₂, ← unit_congr base₂']
        apply (reallocMove_together agrees constant constant' twins₂ here divides (by omega)).weaken
        rintro _ _ _ ⟨moved, rfl, rfl⟩
        refine ⟨moved, ?_, ?_⟩
        · exact congrArg (moved.map ·) (funext (unit_congr (base₂.trans base)))
        · exact congrArg (moved.map ·) (funext (unit_congr (base₂'.trans base')))

end Reallocation

section Starting

structure Unborn (R : σ → τ → Prop) (total : Nat) (s : AllocatorState build σ)
    (t : AllocatorState build τ) : Prop where
  left : Uninitialized total s
  right : Uninitialized total t
  env : R s.env t.env

theorem Unborn.answers (agrees : E.Agrees F (32 * largest) R) (unborn : Unborn R total s t) :
    (s.reserved E = Pointer.null ↔ t.reserved F = Pointer.null) ∧
      (s.firstAnswer E).1 = (t.firstAnswer F).1 ∧ R (s.firstAnswer E).2 (t.firstAnswer F).2 := by
  obtain ⟨null, -, env⟩ := agrees.reserve _ _ unborn.env
  exact ⟨null, agrees.expand _ _ _ _ freeChunkHeaderSize env⟩

theorem Unborn.starts (agrees : E.Agrees F (32 * largest) R) (unborn : Unborn R total s t) :
    s.starts E = t.starts F := by
  obtain ⟨null, answer, -⟩ := unborn.answers agrees
  have same : (s.reserved E != Pointer.null) = (t.reserved F != Pointer.null) := by
    rw [Bool.eq_iff_iff, bne_iff_ne, bne_iff_ne]
    exact null.not
  rw [State.starts, State.starts, same, answer]

theorem Unborn.declined (agrees : E.Agrees F (32 * largest) R) (lawful : E.Lawful build.target total)
    (lawful' : F.Lawful build.target total) (unborn : Unborn R total s t) :
    Unborn R total (s.declined E) (t.declined F) where
  left := declined_uninitialized lawful unborn.left
  right := declined_uninitialized lawful' unborn.right
  env := by
    obtain ⟨null, -, env⟩ := unborn.answers agrees
    rw [State.declined, State.declined]
    by_cases empty : s.reserved E = Pointer.null
    · rw [if_pos empty, if_pos (null.mp empty)]
      exact (agrees.reserve _ _ unborn.env).2.2
    · rw [if_neg empty, if_neg (null.not.mp empty)]
      exact agrees.release _ _ _ _ env

/-- The first allocations on a pair: both fail, or both go on from the fresh heap. -/
theorem Unborn.alloc (agrees : E.Agrees F (32 * largest) R) (lawful : E.Lawful build.target total)
    (lawful' : F.Lawful build.target total) (unborn : Unborn R total s t) (align size : Nat)
    (isCalloc : Bool) :
    (∃ s' t', allocImpl build E align size isCalloc s = .ok (none, s') ∧
        allocImpl build F align size isCalloc t = .ok (none, t') ∧ Unborn R total s' t' ∧
        s'.memory = s.memory ∧ t'.memory = t.memory) ∨
      ∃ s₁ t₁, Twins R total largest s₁ t₁ (Heap.fresh build.target total) ∧
        Frame (fun place => place = 0) (s.started E) s₁ ∧
        Frame (fun place => place = 0) (t.started F) t₁ ∧
        allocImpl build E align size isCalloc s = allocImpl build E align size isCalloc s₁ ∧
        allocImpl build F align size isCalloc t = allocImpl build F align size isCalloc t₁ := by
  by_cases rejected : align = 0 ∨ (!isPowerOfTwo align) = true
  · refine Or.inl ⟨s, t, ?_, ?_, unborn, rfl, rfl⟩
    · rw [allocImpl, if_pos rejected]
      rfl
    · rw [allocImpl, if_pos rejected]
      rfl
  have same := unborn.starts agrees
  have begun := initializeAllocator_ok lawful unborn.left
  have begun' := initializeAllocator_ok lawful' unborn.right
  rw [← same] at begun'
  by_cases starts : s.starts E = true
  · rw [if_pos starts] at begun begun'
    obtain ⟨s₁, run, represents, frame⟩ := begun
    obtain ⟨t₁, run', represents', frame'⟩ := begun'
    refine Or.inr ⟨s₁, t₁, ⟨represents, represents', ?_, ?_⟩, frame, frame', ?_, ?_⟩
    · rw [frame.baseAddress, frame'.baseAddress]
      exact (agrees.reserve _ _ unborn.env).2.1
    · rw [frame.env, frame'.env]
      exact (unborn.answers agrees).2.2
    · rw [allocImpl, if_neg rejected, bind_ok run,
        bind_ok (initializeAllocator_again represents.placed)]
    · rw [allocImpl, if_neg rejected, bind_ok run',
        bind_ok (initializeAllocator_again represents'.placed)]
  · rw [if_neg starts] at begun begun'
    refine Or.inl ⟨_, _, ?_, ?_, unborn.declined agrees lawful lawful', declined_memory, declined_memory⟩
    · rw [allocImpl, if_neg rejected, bind_ok begun]
      rfl
    · rw [allocImpl, if_neg rejected, bind_ok begun']
      rfl

end Starting

end Picoalloc
