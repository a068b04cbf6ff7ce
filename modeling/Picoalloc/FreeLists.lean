import Picoalloc.Headers
import Picoalloc.Heap
import Picoalloc.Foundation.IntrusiveLists

/-!
The free-list index: one intrusive list of unit offsets for each bin, its heads in
`first_in_free_list` and the mask of non-empty bins. Unlinking and registering a
chunk keep the index and touch only headers of listed chunks and of that chunk.
-/

namespace Picoalloc
open CheckedMachine IntrusiveLists

variable {build : Build} {σ : Type}

def State.link {width : Nat} (s : State width σ) : Option Nat → Nat
  | none => Pointer.null
  | some place => s.unit place

def secondaryWords (target : Target) : Nat :=
  Bins.secondaryLength target.maskBits (Bins.binConfig target).binCount

structure Index (s : AllocatorState build σ) (bins : Nat → List Nat) : Prop where
  mask : BitMask.Represents (secondaryWords build.target) s.freeListsWithUnallocatedMemory
    (fun bin => bins bin ≠ [])
  first : ∀ bin < (Bins.binConfig build.target).binCount,
    s.firstInFreeList[bin]? = some (s.link (bins bin).head?)
  linked : ∀ bin, Linked s.link (view s .nextInList) (view s .prevInList) (bins bin)
  nodup : ∀ bin, (bins bin).Nodup
  apart : ∀ bin bin' place, place ∈ bins bin → place ∈ bins bin' → bin = bin'
  granted : ∀ bin place, place ∈ bins bin → place < s.allocatedSpace

section Configuration

theorem maskBits_power (target : Target) :
    target.maskBits = 2 ^ BitMask.primaryBinShift target.maskBits := by
  cases target <;> decide

theorem secondaryWords_lt (target : Target) : secondaryWords target < target.maskBits :=
  (Bins.binCount_fits target).2

theorem binCount_eq (target : Target) :
    (Bins.binConfig target).binCount = target.maskBits * secondaryWords target :=
  (Bins.binCount_fits target).1

theorem maskBits_narrow (target : Target) : target.maskBits < noBit := by
  cases target <;> decide

theorem pow_length (field : Field) (target : Target) :
    2 ^ 32 ≤ 256 ^ field.length target := by
  cases field <;> cases target <;> decide

theorem pow_addressBytes (target : Target) :
    256 ^ target.addressBytes = 2 ^ target.addressBits := by
  cases target <;> decide

end Configuration

section Edits

variable {bins : Nat → List Nat} {bin place : Nat} {s s' : AllocatorState build σ}

theorem link_congr (same : s'.baseAddress = s.baseAddress) : s'.link = s.link := by
  funext target
  cases target <;> simp [State.link, State.unit, same]

theorem Index.congr (index : Index s bins) (base : s'.baseAddress = s.baseAddress)
    (space : s'.allocatedSpace = s.allocatedSpace)
    (mask : s'.freeListsWithUnallocatedMemory = s.freeListsWithUnallocatedMemory)
    (first : s'.firstInFreeList = s.firstInFreeList)
    (next : view s' .nextInList = view s .nextInList)
    (prev : view s' .prevInList = view s .prevInList) : Index s' bins where
  mask := mask ▸ index.mask
  first bin small := by rw [link_congr base, first, index.first bin small]
  linked bin := by rw [link_congr base, next, prev]; exact index.linked bin
  nodup := index.nodup
  apart := index.apart
  granted := space ▸ index.granted

theorem Index.bin_lt (index : Index s bins) (occupied : bins bin ≠ []) :
    bin < (Bins.binConfig build.target).binCount := by
  rw [binCount_eq]
  exact index.mask.inside bin occupied

theorem Index.member_bin_lt (index : Index s bins) (member : place ∈ bins bin) :
    bin < (Bins.binConfig build.target).binCount :=
  index.bin_lt (List.ne_nil_of_mem member)

theorem represents_congr {width length : Nat} {mask : BitMask width} {members members' : Nat → Prop}
    (same : ∀ x, members x ↔ members' x) (rep : BitMask.Represents length mask members) :
    BitMask.Represents length mask members' := by
  rwa [show members' = members from funext fun x => propext (same x).symm]

theorem index_unlink (left : List Nat) {right : List Nat} (index : Index s bins)
    (here : bins bin = left ++ place :: right)
    (base : s'.baseAddress = s.baseAddress) (space : s'.allocatedSpace = s.allocatedSpace)
    (next : view s' .nextInList =
      relink (view s .nextInList) left.getLast? (view s .nextInList place))
    (prev : view s' .prevInList =
      relink (view s .prevInList) right.head? (view s .prevInList place))
    (first : s'.firstInFreeList = s.firstInFreeList.set bin (s.link (left ++ right).head?))
    (mask : BitMask.Represents (secondaryWords build.target) s'.freeListsWithUnallocatedMemory
      (fun other => removeFree bins bin place other ≠ [])) :
    Index s' (removeFree bins bin place) := by
  have unique : (left ++ place :: right).Nodup := here ▸ index.nodup bin
  have fresh : place ∉ left := fun member =>
    (List.nodup_append.mp unique).2.2 place member place List.mem_cons_self rfl
  have removed : removeFree bins bin place bin = left ++ right := by
    rw [removeFree, Function.update_self, here, erase_middle fresh]
  have others : ∀ other, other ≠ bin → removeFree bins bin place other = bins other := fun other h =>
    Function.update_of_ne h _ _
  -- The lists of other bins share no chunk with this one, so relinking does not reach them.
  have away : ∀ other, other ≠ bin → ∀ w ∈ bins other, w ∉ left ∧ w ∉ right := by
    intro other different w member
    have absent : w ∉ bins bin := fun twice => different (index.apart other bin w member twice)
    rw [here] at absent
    simp only [List.mem_append, List.mem_cons, not_or] at absent
    exact ⟨absent.1, absent.2.2⟩
  refine ⟨mask, ?_, ?_, nodup_removeFree index.nodup, ?_, ?_⟩
  · intro other small
    rw [link_congr base, first, List.getElem?_set]
    by_cases same : bin = other
    · subst same
      obtain ⟨inside, _⟩ := List.getElem?_eq_some_iff.mp (index.first bin small)
      simp [inside, removed]
    · rw [if_neg same, others other (Ne.symm same)]
      exact index.first other small
  · intro other
    rw [link_congr base, next, prev]
    by_cases same : other = bin
    · subst same
      rw [removed]
      exact linked_unlink unique (here ▸ index.linked other)
    · rw [others other same]
      refine linked_relink ?_ ?_ (index.linked other)
      · rintro w member last
        exact (away other same w member).1 (List.mem_of_getLast? last)
      · rintro w member head
        exact (away other same w member).2 (List.mem_of_head? head)
  · intro b b' w member member'
    exact index.apart b b' w ((mem_removeFree index.nodup b w).mp member).1
      ((mem_removeFree index.nodup b' w).mp member').1
  · intro b w member
    rw [space]
    exact index.granted b w ((mem_removeFree index.nodup b w).mp member).1

theorem index_push (index : Index s bins) (small : bin < (Bins.binConfig build.target).binCount)
    (fresh : ∀ other, place ∉ bins other) (inside : place < s.allocatedSpace)
    (base : s'.baseAddress = s.baseAddress) (space : s'.allocatedSpace = s.allocatedSpace)
    (next : view s' .nextInList =
      Function.update (view s .nextInList) place (s.link (bins bin).head?))
    (prev : view s' .prevInList =
      relink (Function.update (view s .prevInList) place Pointer.null) (bins bin).head?
        (s.unit place))
    (first : s'.firstInFreeList = s.firstInFreeList.set bin (s.unit place))
    (mask : BitMask.Represents (secondaryWords build.target) s'.freeListsWithUnallocatedMemory
      (fun other => other = bin ∨ bins other ≠ [])) :
    Index s' (insertFree bins bin place) := by
  have pushed : insertFree bins bin place bin = place :: bins bin := Function.update_self _ _ _
  have others : ∀ other, other ≠ bin → insertFree bins bin place other = bins other := fun other h =>
    Function.update_of_ne h _ _
  refine ⟨represents_congr ?_ mask, ?_, ?_, nodup_insertFree index.nodup (fresh bin), ?_, ?_⟩
  · intro other
    by_cases same : other = bin
    · simp [same, pushed]
    · simp [same, others other same]
  · intro other below
    rw [link_congr base, first, List.getElem?_set]
    by_cases same : bin = other
    · subst same
      obtain ⟨room, _⟩ := List.getElem?_eq_some_iff.mp (index.first bin small)
      simp [room, pushed, State.link]
    · rw [if_neg same, others other (Ne.symm same)]
      exact index.first other below
  · intro other
    rw [link_congr base, next, prev]
    by_cases same : other = bin
    · subst same
      rw [pushed]
      exact linked_push (index.nodup other) (fresh other) (index.linked other)
    · rw [others other same]
      refine linked_congr (fun w member => ?_) (index.linked other)
      -- neither the new chunk nor the old head is in another list
      have different : w ≠ place := fun equal => fresh other (equal ▸ member)
      have apartHead : (bins bin).head? ≠ some w := fun head =>
        same (index.apart other bin w member (List.mem_of_head? head))
      exact ⟨Function.update_of_ne different _ _,
        (relink_other apartHead).trans (Function.update_of_ne different _ _)⟩
  · intro b b' w member member'
    rcases (mem_insertFree b w).mp member with ⟨rfl, rfl⟩ | old
    · rcases (mem_insertFree b' w).mp member' with ⟨rfl, _⟩ | old'
      · rfl
      · exact absurd old' (fresh b')
    · rcases (mem_insertFree b' w).mp member' with ⟨rfl, rfl⟩ | old'
      · exact absurd old (fresh b)
      · exact index.apart b b' w old old'
  · intro b w member
    rw [space]
    rcases (mem_insertFree b w).mp member with ⟨_, rfl⟩ | old
    · exact inside
    · exact index.granted b w old

end Edits

section Primitives

variable {s : AllocatorState build σ} {bins : Nat → List Nat} {bin : Nat}

theorem getFirst_ok {item : Nat} (here : s.firstInFreeList[bin]? = some item) :
    getFirstInFreeList build bin s = .ok (item, s) := by
  rw [getFirstInFreeList, bind_ok (get_apply s), lift_ok (BitMask.getUnchecked_ok here)]

theorem setFirst_ok {item : Nat} (here : s.firstInFreeList[bin]? = some item) (chunk : Nat) :
    setFirstInFreeList build bin chunk s =
      .ok ((), { s with firstInFreeList := s.firstInFreeList.set bin chunk }) := by
  rw [setFirstInFreeList, bind_ok (getFirst_ok here)]
  rfl

theorem setBin_ok {members : Nat → Prop}
    (rep : BitMask.Represents (secondaryWords build.target) s.freeListsWithUnallocatedMemory members)
    (small : bin < (Bins.binConfig build.target).binCount) :
    ∃ mask, setBin build (BitMask.index build.target.maskBits bin) s =
        .ok ((), { s with freeListsWithUnallocatedMemory := mask }) ∧
      BitMask.Represents (secondaryWords build.target) mask (fun x => x = bin ∨ members x) := by
  rw [binCount_eq] at small
  obtain ⟨mask, run, rep'⟩ := BitMask.set_ok (maskBits_power _) build.overflowChecks
    (secondaryWords_lt _).le rep small
  refine ⟨mask, ?_, rep'⟩
  rw [setBin, bind_ok (get_apply s), bind_ok (lift_ok run s)]
  rfl

theorem unsetBin_ok {members : Nat → Prop}
    (rep : BitMask.Represents (secondaryWords build.target) s.freeListsWithUnallocatedMemory members)
    (small : bin < (Bins.binConfig build.target).binCount) :
    ∃ mask, unsetBin build (BitMask.index build.target.maskBits bin) s =
        .ok ((), { s with freeListsWithUnallocatedMemory := mask }) ∧
      BitMask.Represents (secondaryWords build.target) mask (fun x => x ≠ bin ∧ members x) := by
  rw [binCount_eq] at small
  obtain ⟨mask, run, rep'⟩ := BitMask.unset_ok (maskBits_power _) build.overflowChecks
    (secondaryWords_lt _).le rep small
  refine ⟨mask, ?_, rep'⟩
  rw [unsetBin, bind_ok (get_apply s), bind_ok (lift_ok run s)]
  rfl

end Primitives

section Specifications

variable {total place bin : Nat} {s : AllocatorState build σ} {bins : Nat → List Nat}

structure Relinked (touched : Nat → Prop) (s s' : AllocatorState build σ) : Prop where
  frame : Frame touched s s'
  prevChunkSize : view s' .prevChunkSize = view s .prevChunkSize
  size : view s' .size = view s .size

def Listed (bins : Nat → List Nat) (place : Nat) : Prop := ∃ bin, place ∈ bins bin

theorem link_fits (placed : Placed total s) (target : Option Nat)
    (inside : ∀ place ∈ target, place ≤ total) :
    s.link target < 256 ^ build.target.addressBytes := by
  have bound := placed.inside
  rw [pow_addressBytes]
  cases target with
  | none => exact Nat.lt_of_le_of_lt (Nat.zero_le _) bound
  | some place =>
      have := inside place rfl
      simp only [State.link, State.unit]
      omega

theorem link_isNull (placed : Placed total s) (target : Option Nat) :
    Pointer.isNull (s.link target) = target.isNone := by
  cases target with
  | none => rfl
  | some place => exact unit_nonnull placed place

theorem link_ne_unit (placed : Placed total s) {target : Option Nat} (other : target ≠ some place) :
    s.link target ≠ s.unit place := by
  cases target with
  | none =>
      have := placed.nonnull
      simp only [State.link, Pointer.null, State.unit]
      omega
  | some here => exact fun same => other (congrArg some (unit_inj.mp same))

theorem mask_kept (index : Index s bins) (member : place ∈ bins bin)
    (rest : removeFree bins bin place bin ≠ []) :
    BitMask.Represents (secondaryWords build.target) s.freeListsWithUnallocatedMemory
      (fun other => removeFree bins bin place other ≠ []) := by
  refine represents_congr (fun other => ?_) index.mask
  by_cases same : other = bin
  · subst same
    exact iff_of_true (List.ne_nil_of_mem member) rest
  · simp [same, removeFree]

def putBack (s : AllocatorState build σ) (target : Option Nat) (value : Nat) :
    AllocatorState build σ :=
  match target with
  | none => s
  | some place => put s .prevInList place value

theorem linkBack_ok (placed : Placed total s) (target : Option Nat)
    (inside : ∀ place ∈ target, place < s.allocatedSpace) (value : Nat) :
    linkBack build (s.link target) value s = .ok ((), putBack s target value) := by
  rw [linkBack, link_isNull placed]
  cases target with
  | none => rfl
  | some place => exact store_ok placed (inside place rfl) _ _

theorem frame_putBack (s : AllocatorState build σ) {target : Option Nat} (value : Nat)
    {touched : Nat → Prop} (here : ∀ place ∈ target, touched place) :
    Frame touched s (putBack s target value) := by
  cases target with
  | none => exact Frame.refl _ _
  | some place => exact Frame.put s .prevInList value (here place rfl)

theorem views_putBack (s : AllocatorState build σ) (target : Option Nat) {value : Nat}
    (fits : value < 256 ^ build.target.addressBytes) :
    view (putBack s target value) .prevChunkSize = view s .prevChunkSize ∧
      view (putBack s target value) .size = view s .size ∧
      view (putBack s target value) .nextInList = view s .nextInList ∧
      view (putBack s target value) .prevInList =
        relink (view s .prevInList) target value := by
  cases target with
  | none => exact ⟨rfl, rfl, rfl, rfl⟩
  | some place =>
      exact ⟨view_put_other _ _ _ (by decide), view_put_other _ _ _ (by decide),
        view_put_other _ _ _ (by decide), view_put_same _ _ fits⟩

@[simp] theorem putBack_baseAddress (s : AllocatorState build σ) (target : Option Nat)
    (value : Nat) : (putBack s target value).baseAddress = s.baseAddress := by
  cases target <;> rfl

@[simp] theorem putBack_allocatedSpace (s : AllocatorState build σ) (target : Option Nat)
    (value : Nat) : (putBack s target value).allocatedSpace = s.allocatedSpace := by
  cases target <;> rfl

@[simp] theorem putBack_firstInFreeList (s : AllocatorState build σ) (target : Option Nat)
    (value : Nat) : (putBack s target value).firstInFreeList = s.firstInFreeList := by
  cases target <;> rfl

@[simp] theorem putBack_mask (s : AllocatorState build σ) (target : Option Nat) (value : Nat) :
    (putBack s target value).freeListsWithUnallocatedMemory =
      s.freeListsWithUnallocatedMemory := by
  cases target <;> rfl

/-- The head of a list is unlinked through `first_in_free_list`. -/
theorem unregisterFreeSpaceFirstChunk_ok (placed : Placed total s) (index : Index s bins)
    {rest : List Nat} (here : bins bin = place :: rest)
    (free : ChunkSize.isAllocated (view s .size place) = false) :
    ∃ s', unregisterFreeSpaceFirstChunk build (s.unit place)
        (BitMask.index build.target.maskBits bin) s = .ok ((), s') ∧
      Index s' (removeFree bins bin place) ∧ Relinked (Listed bins) s s' := by
  have member : place ∈ bins bin := here ▸ List.mem_cons_self
  have small := index.member_bin_lt member
  have inside := index.granted bin place member
  have head : s.firstInFreeList[bin]? = some (s.unit place) := by
    rw [index.first bin small, here]
    rfl
  obtain ⟨back, forth⟩ := linked_at [] (here ▸ index.linked bin)
  have unique : (place :: rest).Nodup := here ▸ index.nodup bin
  have removed : removeFree bins bin place bin = rest := by
    rw [removeFree, Function.update_self, here, List.erase_cons_head]
  have checks : checkFirstChunk build (s.unit place) (BitMask.index build.target.maskBits bin) s =
      .ok ((), s) := by
    rw [checkFirstChunk]
    split
    · rw [BitMask.index_index, bind_ok (getFirst_ok head), bind_ok (assertTrue_ok (by simp)),
        bind_ok (load_ok placed inside _), bind_ok (assertTrue_ok (by simp [free])),
        bind_ok (load_ok placed inside _), assertTrue_ok (by rw [back]; rfl)]
    · rfl
  have distinct : s.link rest.head? ≠ s.unit place := link_ne_unit placed fun head =>
    (List.nodup_cons.mp unique).1 (List.mem_of_head? head)
  -- The list's head now is the next chunk, which may be none.
  let s₁ : AllocatorState build σ :=
    { s with firstInFreeList := s.firstInFreeList.set bin (s.link rest.head?) }
  have placed₁ : Placed total s₁ := placed.congr rfl rfl rfl
  have prologue : unregisterFreeSpaceFirstChunk build (s.unit place)
      (BitMask.index build.target.maskBits bin) s =
      (if Pointer.isNull (s.link rest.head?) then
        unsetBin build (BitMask.index build.target.maskBits bin)
      else store build (s.link rest.head?) .prevInList Pointer.null) s₁ := by
    rw [unregisterFreeSpaceFirstChunk,
      bind_ok (paranoidCheckAccess_ok placed inside (freeChunkHeader_fits _)), bind_ok checks,
      bind_ok (load_ok placed inside _), forth, bind_ok (paranoidAssert_ok (by simpa using distinct)),
      BitMask.index_index, bind_ok (setFirst_ok head _)]
  rw [prologue, link_isNull placed]
  -- The bit of the bin goes with the last chunk; otherwise the new head loses its back link.
  cases rest with
  | nil =>
      obtain ⟨mask, run, rep⟩ := unsetBin_ok (s := s₁) index.mask small
      refine ⟨_, run, ?_, ⟨⟨rfl, rfl, rfl, rfl, rfl, fun a changed => absurd rfl changed⟩, rfl, rfl⟩⟩
      refine index_unlink [] index here rfl rfl rfl rfl rfl (represents_congr ?_ rep)
      intro other
      by_cases same : other = bin
      · simp [same, removed]
      · simp [same, removeFree]
  | cons w rest =>
      have listed : w ∈ bins bin := by simp [here]
      have granted := index.granted bin w listed
      have stored := store_ok (s := s₁) placed₁ granted .prevInList Pointer.null
      have zeroFits : Pointer.null < 256 ^ Field.length build.target .prevInList :=
        Nat.pos_of_ne_zero (by simp)
      have mask := mask_kept index member (by simp [removed])
      refine ⟨_, stored, ?_, ⟨?_, ?_, ?_⟩⟩
      · refine index_unlink [] index here rfl rfl ?_ ?_ rfl mask
        · exact view_put_other s₁ w Pointer.null (by decide)
        · rw [back]
          exact view_put_same s₁ w zeroFits
      · exact { (Frame.put s₁ .prevInList Pointer.null ⟨bin, listed⟩ : Frame (Listed bins) s₁ _) with }
      · exact view_put_other s₁ w Pointer.null (by decide)
      · exact view_put_other s₁ w Pointer.null (by decide)

/-- Any listed chunk is unlinked, through its neighbours when it is not the head. -/
theorem unregisterFreeSpace_ok (placed : Placed total s) (index : Index s bins)
    (member : place ∈ bins bin) (free : ChunkSize.isAllocated (view s .size place) = false) :
    ∃ s', unregisterFreeSpace build (s.unit place) (BitMask.index build.target.maskBits bin) s =
        .ok ((), s') ∧
      Index s' (removeFree bins bin place) ∧ Relinked (Listed bins) s s' := by
  have small := index.member_bin_lt member
  have inside := index.granted bin place member
  obtain ⟨left, right, here⟩ := List.append_of_mem member
  have first := index.first bin small
  have access := paranoidCheckAccess_ok placed inside (freeChunkHeader_fits build.target)
  -- The source tells the head of a list by comparing it with `first_in_free_list`.
  rcases List.eq_nil_or_concat left with rfl | ⟨before, w, rfl⟩
  · rw [here] at first
    rw [unregisterFreeSpace, bind_ok access, BitMask.index_index, bind_ok (getFirst_ok first)]
    simp only [List.nil_append, List.head?_cons, State.link, ↓reduceIte]
    exact unregisterFreeSpaceFirstChunk_ok placed index here free
  · rw [List.concat_eq_append] at here
    obtain ⟨back, forth⟩ := linked_at (before ++ [w]) (here ▸ index.linked bin)
    have unique : ((before ++ [w]) ++ place :: right).Nodup := here ▸ index.nodup bin
    have fresh : place ∉ before ++ [w] := fun twice =>
      (List.nodup_append.mp unique).2.2 place twice place List.mem_cons_self rfl
    have freshRight : place ∉ right := (List.nodup_cons.mp (List.nodup_append.mp unique).2.1).1
    have headSame : ((before ++ [w]) ++ right).head? = (bins bin).head? := by
      rw [here]
      cases before <;> simp
    have headOther : (bins bin).head? ≠ some place := by
      intro same
      rw [here] at same
      refine fresh (List.mem_of_head? ?_ : place ∈ before ++ [w])
      cases before <;> simpa using same
    have notFirst : s.link (bins bin).head? ≠ s.unit place := link_ne_unit placed headOther
    have previous : view s .prevInList place = s.unit w := by
      rw [back]
      simp [State.link]
    have listedLeft : w ∈ bins bin := by simp [here]
    have grantedLeft := index.granted bin w listedLeft
    have notNext : view s .nextInList place ≠ s.unit place := by
      rw [forth]
      exact link_ne_unit placed fun head => freshRight (List.mem_of_head? head)
    have notPrev : s.unit w ≠ s.unit place := fun same => fresh (by simp [unit_inj.mp same])
    -- The forward link is written first, the backward one into the state that leaves.
    let s₁ := put s .nextInList w (view s .nextInList place)
    have frame₁ : Frame (Listed bins) s s₁ :=
      Frame.put s .nextInList _ ⟨bin, listedLeft⟩
    have placed₁ := frame₁.placed placed
    have nextFits : view s .nextInList place < 256 ^ Field.length build.target .nextInList := by
      rw [forth]
      refine link_fits placed _ fun x member => ?_
      have listed : x ∈ bins bin := by
        rw [here]
        exact List.mem_append_right _ (List.mem_cons_of_mem _ (List.mem_of_head? member))
      have := index.granted bin x listed
      have := placed.within
      omega
    have next₁ : view s₁ .nextInList =
        relink (view s .nextInList) (before ++ [w]).getLast? (view s .nextInList place) := by
      rw [view_put_same s w nextFits, List.getLast?_concat]
      rfl
    have mask₁ : BitMask.Represents (secondaryWords build.target)
        s.freeListsWithUnallocatedMemory (fun other => removeFree bins bin place other ≠ []) := by
      refine mask_kept index member ?_
      rw [removeFree, Function.update_self, here, erase_middle fresh]
      simp
    have firstKept : s.firstInFreeList =
        s.firstInFreeList.set bin (s.link ((before ++ [w]) ++ right).head?) := by
      rw [headSame]
      obtain ⟨room, value⟩ := List.getElem?_eq_some_iff.mp first
      rw [← value, List.set_getElem_self]
    have unitFits : s.unit w < 256 ^ build.target.addressBytes :=
      link_fits placed (some w) (by
        have := placed.within
        simp only [Option.mem_def, Option.some.injEq, forall_eq']
        omega)
    have listedRight : ∀ x ∈ right.head?, x ∈ bins bin := fun x member => by
      rw [here]
      exact List.mem_append_right _ (List.mem_cons_of_mem _ (List.mem_of_head? member))
    have relinked := linkBack_ok placed₁ right.head?
      (fun x member => index.granted bin x (listedRight x member)) (s.unit w)
    obtain ⟨prevs, sizes, nexts, prevLinks⟩ := views_putBack s₁ right.head? unitFits
    have kept : ∀ field, field ≠ .nextInList → view s₁ field = view s field :=
      fun field other => view_put_other s w _ (Ne.symm other)
    refine ⟨putBack s₁ right.head? (s.unit w), ?_, index_unlink _ index here (by simp [s₁])
      (by simp [s₁]) (nexts.trans next₁) ?_ (by simpa [s₁] using firstKept)
      (by simpa [s₁] using mask₁),
      frame₁.trans (frame_putBack s₁ _ fun x member => ⟨bin, listedRight x member⟩),
      prevs.trans (kept _ (by decide)), sizes.trans (kept _ (by decide))⟩
    · rw [unregisterFreeSpace, bind_ok access, BitMask.index_index, bind_ok (getFirst_ok first),
        if_neg notFirst, bind_ok (load_ok placed inside _),
        bind_ok (paranoidAssert_ok (by simp [free])), bind_ok (load_ok placed inside _),
        bind_ok (load_ok placed inside _), bind_ok (paranoidAssert_ok (by simpa using notNext)),
        previous, bind_ok (paranoidAssert_ok (by simpa using notPrev)),
        bind_ok (paranoidAssert_ok (by simp [unit_nonnull placed])),
        bind_ok (store_ok placed grantedLeft _ _)]
      rw [← relinked, show s₁.link = s.link from link_congr rfl, ← forth]
    · rw [prevLinks, kept _ (by decide), previous]

def putTags (s : AllocatorState build σ) (place prevChunkSize tag : Nat) :
    AllocatorState build σ :=
  put (put s .prevChunkSize place prevChunkSize) .size place tag

theorem frame_putTags (s : AllocatorState build σ) (prevChunkSize tag : Nat)
    {touched : Nat → Prop} (here : touched place) :
    Frame touched s (putTags s place prevChunkSize tag) :=
  (Frame.put s .prevChunkSize _ here).trans (Frame.put _ .size _ here)

theorem views_putTags (s : AllocatorState build σ) (place : Nat) {prevChunkSize tag : Nat}
    (prevFits : prevChunkSize < 2 ^ 32) (tagFits : tag < 2 ^ 32) :
    view (putTags s place prevChunkSize tag) .prevChunkSize =
        Function.update (view s .prevChunkSize) place prevChunkSize ∧
      view (putTags s place prevChunkSize tag) .size =
        Function.update (view s .size) place tag ∧
      view (putTags s place prevChunkSize tag) .nextInList = view s .nextInList ∧
      view (putTags s place prevChunkSize tag) .prevInList = view s .prevInList := by
  have fits : ∀ {value : Nat} (field : Field), value < 2 ^ 32 →
      value < 256 ^ field.length build.target := fun field small =>
    Nat.lt_of_lt_of_le small (pow_length _ _)
  refine ⟨?_, ?_, ?_, ?_⟩
  · rw [putTags, view_put_other _ _ _ (by decide), view_put_same _ _ (fits _ prevFits)]
  · rw [putTags, view_put_same _ _ (fits _ tagFits), view_put_other _ _ _ (by decide)]
  · rw [putTags, view_put_other _ _ _ (by decide), view_put_other _ _ _ (by decide)]
  · rw [putTags, view_put_other _ _ _ (by decide), view_put_other _ _ _ (by decide)]

theorem writeChunkHeader_ok (placed : Placed total s) (inside : place < s.allocatedSpace)
    (prevChunkSize tag : Nat) :
    writeChunkHeader build (s.unit place) prevChunkSize tag s =
      .ok ((), putTags s place prevChunkSize tag) := by
  rw [writeChunkHeader, bind_ok (store_ok placed inside _ _)]
  exact store_ok (s := put s .prevChunkSize place prevChunkSize) (placed.congr rfl rfl rfl) inside
    .size tag

def putFree (s : AllocatorState build σ) (place prevChunkSize tag nextInList prevInList : Nat) :
    AllocatorState build σ :=
  put (put (putTags s place prevChunkSize tag) .nextInList place nextInList) .prevInList place
    prevInList

theorem frame_putFree (s : AllocatorState build σ)
    (prevChunkSize tag nextInList prevInList : Nat) {touched : Nat → Prop} (here : touched place) :
    Frame touched s (putFree s place prevChunkSize tag nextInList prevInList) :=
  ((frame_putTags s _ _ here).trans (Frame.put _ .nextInList _ here)).trans
    (Frame.put _ .prevInList _ here)

theorem views_putFree (s : AllocatorState build σ) (place : Nat)
    {prevChunkSize tag nextInList prevInList : Nat} (prevFits : prevChunkSize < 2 ^ 32)
    (tagFits : tag < 2 ^ 32) (nextFits : nextInList < 256 ^ build.target.addressBytes)
    (linkFits : prevInList < 256 ^ build.target.addressBytes) :
    let s' := putFree s place prevChunkSize tag nextInList prevInList
    view s' .prevChunkSize = Function.update (view s .prevChunkSize) place prevChunkSize ∧
      view s' .size = Function.update (view s .size) place tag ∧
      view s' .nextInList = Function.update (view s .nextInList) place nextInList ∧
      view s' .prevInList = Function.update (view s .prevInList) place prevInList := by
  obtain ⟨prevs, sizes, nexts, prevLinks⟩ := views_putTags s place prevFits tagFits
  refine ⟨?_, ?_, ?_, ?_⟩
  · rw [putFree, view_put_other _ _ _ (by decide), view_put_other _ _ _ (by decide), prevs]
  · rw [putFree, view_put_other _ _ _ (by decide), view_put_other _ _ _ (by decide), sizes]
  · rw [putFree, view_put_other _ _ _ (by decide), view_put_same _ _ nextFits, nexts]
  · rw [putFree, view_put_same _ _ linkFits, view_put_other _ _ _ (by decide), prevLinks]

theorem writeFreeChunkHeader_ok (placed : Placed total s) (inside : place < s.allocatedSpace)
    (prevChunkSize tag nextInList prevInList : Nat) :
    writeFreeChunkHeader build (s.unit place) prevChunkSize tag nextInList prevInList s =
      .ok ((), putFree s place prevChunkSize tag nextInList prevInList) := by
  have placed' : ∀ t : AllocatorState build σ, t.baseAddress = s.baseAddress →
      t.allocatedSpace = s.allocatedSpace → t.trace = s.trace → Placed total t :=
    fun _ base space trace => placed.congr base space trace
  rw [writeFreeChunkHeader, bind_ok (store_ok placed inside _ _)]
  refine (bind_ok (store_ok (s := put s .prevChunkSize place prevChunkSize)
    (placed' _ rfl rfl rfl) inside .size tag)).trans ?_
  refine (bind_ok (store_ok (s := putTags s place prevChunkSize tag)
    (placed' _ rfl rfl rfl) inside .nextInList nextInList)).trans ?_
  exact store_ok (s := put (putTags s place prevChunkSize tag) .nextInList place nextInList)
    (placed' _ rfl rfl rfl) inside .prevInList prevInList

theorem registerFreeSpace_ok (placed : Placed total s) (index : Index s bins)
    {size prevChunkSize : Nat} (positive : 0 < size) (small : size < unitLimit)
    (prevSmall : prevChunkSize < unitLimit) (fresh : ¬ Listed bins place)
    (inside : place < s.allocatedSpace) :
    ∃ s', registerFreeSpace build (s.unit place) prevChunkSize size s = .ok (size, s') ∧
      Index s' (insertFree bins (Bins.binOf build.target size) place) ∧
      Frame (fun v => v = place ∨ Listed bins v) s s' ∧
      view s' .prevChunkSize = Function.update (view s .prevChunkSize) place prevChunkSize ∧
      view s' .size = Function.update (view s .size) place (2 * size) := by
  let bin := Bins.binOf build.target size
  have binSmall : bin < (Bins.binConfig build.target).binCount := Bins.binOf_lt _ _
  have head := index.first bin binSmall
  have absent : ∀ other, place ∉ bins other := fun other member => fresh ⟨other, member⟩
  have headInside : ∀ w ∈ (bins bin).head?, w < s.allocatedSpace := fun w member =>
    index.granted bin w (List.mem_of_head? member)
  have within := placed.within
  simp only [unitLimit] at small prevSmall
  have headFits : s.link (bins bin).head? < 256 ^ build.target.addressBytes :=
    link_fits placed _ fun w member => by have := headInside w member; omega
  have unitFits : s.unit place < 256 ^ build.target.addressBytes :=
    link_fits placed (some place) (by
      simp only [Option.mem_def, Option.some.injEq, forall_eq']
      omega)
  -- The state once the table and the whole header are written.
  let s₁ : AllocatorState build σ :=
    { s with firstInFreeList := s.firstInFreeList.set bin (s.unit place) }
  let s₂ := putFree s₁ place prevChunkSize (2 * size) (s.link (bins bin).head?) Pointer.null
  have placed₁ : Placed total s₁ := placed.congr rfl rfl rfl
  have placed₂ : Placed total s₂ := placed.congr rfl rfl rfl
  have frame₂ : Frame (fun v => v = place ∨ Listed bins v) s s₂ :=
    { (frame_putFree s₁ prevChunkSize (2 * size) (s.link (bins bin).head?) Pointer.null
        (Or.inl rfl) : Frame (fun v => v = place ∨ Listed bins v) s₁ _) with }
  have tagSmall : 2 * size < 2 ^ 32 := by omega
  have nullFits : Pointer.null < 256 ^ build.target.addressBytes :=
    Nat.lt_of_le_of_lt (Nat.zero_le _) headFits
  obtain ⟨prevs, sizes, nexts, prevLinks⟩ :=
    views_putFree s₁ place (prevSmall.trans (by decide)) tagSmall headFits nullFits
  have prevKept : view s₂ .prevInList =
      Function.update (view s .prevInList) place Pointer.null := prevLinks
  obtain ⟨prevs₃, sizes₃, nexts₃, prevLinks₃⟩ := views_putBack s₂ (bins bin).head? unitFits
  have backed := linkBack_ok placed₂ (bins bin).head? headInside (s.unit place)
  have frame₃ : Frame (fun v => v = place ∨ Listed bins v) s
      (putBack s₂ (bins bin).head? (s.unit place)) :=
    frame₂.trans (frame_putBack s₂ _ fun w member => Or.inr ⟨bin, List.mem_of_head? member⟩)
  have maskKept : BitMask.Represents (secondaryWords build.target)
      (putBack s₂ (bins bin).head? (s.unit place)).freeListsWithUnallocatedMemory
      (fun other => bins other ≠ []) := by
    rw [putBack_mask]
    exact index.mask
  obtain ⟨mask, run, rep⟩ := setBin_ok maskKept binSmall
  refine ⟨{ putBack s₂ (bins bin).head? (s.unit place) with freeListsWithUnallocatedMemory := mask },
    ?_, index_push index binSmall absent inside frame₃.baseAddress frame₃.allocatedSpace
    (nexts₃.trans nexts) ?_ (putBack_firstInFreeList _ _ _) rep, { frame₃ with },
    prevs₃.trans prevs, sizes₃.trans sizes⟩
  · rw [registerFreeSpace, if_neg (by simp [Size.isEmpty, positive.ne']),
      bind_ok (paranoidCheckAccess_ok placed inside (freeChunkHeader_fits _)),
      bind_ok (sizeToBinRoundDown_ok size), BitMask.index_index, bind_ok (getFirst_ok head),
      bind_ok (setFirst_ok head _), newUnallocated_eq (by omega)]
    refine (bind_ok (writeFreeChunkHeader_ok placed₁ inside _ _ _ _)).trans ?_
    refine (bind_ok backed).trans ?_
    exact bind_ok run
  · rw [← prevKept]
    exact prevLinks₃

theorem registerAllocation_ok (placed : Placed total s) {size : Nat} (small : size < unitLimit)
    (inside : place < s.allocatedSpace) (prevChunkSize : Nat) :
    registerAllocation build (s.unit place) prevChunkSize size s =
      .ok ((), putTags s place prevChunkSize (2 * size + 1)) := by
  simp only [unitLimit] at small
  rw [registerAllocation, bind_ok (paranoidCheckAccess_ok placed inside (by decide)),
    newAllocated_eq (by omega)]
  exact writeChunkHeader_ok placed inside _ _

end Specifications

end Picoalloc
