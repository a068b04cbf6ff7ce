import Picoalloc.Footprints

/-!
Reservations of address space, with any environment whatsoever. An initialization
that fails gives back what it reserved; one that succeeds keeps it at the base, which
`Drop` frees. `Drop` does not ask whether there is a base.
-/

namespace Picoalloc
open CheckedMachine

/-- The reservations held after some calls, newest first. -/
def held : List Event → List Nat
  | [] => []
  | .allocateAddressSpace base :: rest =>
      if Pointer.isNull base then held rest else base :: held rest
  | .expandMemoryUntil _ _ _ :: rest => held rest
  | .freeAddressSpace base :: rest => (held rest).erase base

def Disciplined : List Event → Prop
  | [] => True
  | .freeAddressSpace base :: rest => base ∈ held rest ∧ Disciplined rest
  | _ :: rest => Disciplined rest

/-- Every reservation is freed exactly once, and nothing else is. -/
structure Released (trace : List Event) : Prop where
  once : ∀ base ≠ Pointer.null,
    trace.count (.freeAddressSpace base) = trace.count (.allocateAddressSpace base)
  owned : ∀ after base before, trace = after ++ .freeAddressSpace base :: before → base ∈ held before

theorem disciplined_owned (trace : List Event) : Disciplined trace ↔
    ∀ after base before, trace = after ++ .freeAddressSpace base :: before → base ∈ held before := by
  constructor
  · intro disciplined after
    induction after generalizing trace with
    | nil =>
        rintro base before rfl
        exact disciplined.1
    | cons event after ih =>
        rintro base before rfl
        refine ih _ ?_ base before rfl
        cases event with
        | freeAddressSpace place => exact disciplined.2
        | _ => exact disciplined
  · induction trace with
    | nil => exact fun _ => trivial
    | cons event rest ih =>
        intro owned
        have later := ih fun after base before split =>
          owned (event :: after) base before (congrArg (event :: ·) split)
        cases event with
        | freeAddressSpace place => exact ⟨owned [] place rest rfl, later⟩
        | _ => exact later

theorem null_not_held (trace : List Event) : Pointer.null ∉ held trace := by
  induction trace with
  | nil => exact List.not_mem_nil
  | cons event rest ih =>
      cases event with
      | allocateAddressSpace base =>
          simp only [held]
          split
          · exact ih
          · next nonnull =>
            rintro (_ | ⟨_, member⟩)
            · exact nonnull rfl
            · exact ih member
      | expandMemoryUntil => exact ih
      | freeAddressSpace base => exact fun member => ih (List.mem_of_mem_erase member)

theorem held_count {trace : List Event} (disciplined : Disciplined trace) {base : Nat}
    (nonnull : base ≠ Pointer.null) :
    (held trace).count base + trace.count (.freeAddressSpace base) =
      trace.count (.allocateAddressSpace base) := by
  induction trace with
  | nil => rfl
  | cons event rest ih =>
      cases event with
      | allocateAddressSpace place =>
          have later := ih disciplined
          by_cases same : place = base
          · subst same
            have present : ¬ Pointer.isNull place = true := by
              simpa [Pointer.isNull, Pointer.null] using nonnull
            rw [held, if_neg present]
            simp
            omega
          · rw [held]
            split <;> simp [same] <;> omega
      | expandMemoryUntil =>
          have later := ih disciplined
          simp only [held]
          simp
          omega
      | freeAddressSpace place =>
          have later := ih disciplined.2
          have present : 0 < (held rest).count place := List.count_pos_iff.mpr disciplined.1
          by_cases same : place = base
          · subst same
            simp only [held, List.count_erase_self, List.count_cons_self]
            simp
            omega
          · rw [held, List.count_erase_of_ne (Ne.symm same)]
            simp [same]
            omega

theorem released_iff (trace : List Event) : Released trace ↔ Disciplined trace ∧ held trace = [] := by
  constructor
  · intro released
    have disciplined := (disciplined_owned trace).mpr released.owned
    refine ⟨disciplined, List.eq_nil_iff_forall_not_mem.mpr fun base member => ?_⟩
    have nonnull : base ≠ Pointer.null := fun null => null_not_held trace (null ▸ member)
    have counted := held_count disciplined nonnull
    have once := released.once base nonnull
    have positive := List.count_pos_iff.mpr member
    omega
  · rintro ⟨disciplined, none⟩
    refine ⟨fun base nonnull => ?_, (disciplined_owned trace).mp disciplined⟩
    have counted := held_count disciplined nonnull
    rw [none] at counted
    simpa using counted

section Invariant

variable {build : Build} {σ : Type} {E : Env σ} {s s' : AllocatorState build σ}

/-- The base is the one reservation that is held; a null base stands for none. -/
def Reserved (s : AllocatorState build σ) : Prop :=
  Disciplined s.trace ∧
    held s.trace = if Pointer.isNull s.baseAddress then [] else [s.baseAddress]

instance reserved_anchored : Anchored (Reserved : AllocatorState build σ → Prop) where
  congr s s' base trace _ reserved := by
    simp only [Reserved, base, trace]
    exact reserved

instance reserved_overwrites : Overwrites (Reserved : AllocatorState build σ → Prop) where
  overwrite _ _ _ reserved := reserved

instance reserved_expands : Expands E (Reserved : AllocatorState build σ → Prop) where
  expand _ _ _ reserved := reserved

theorem reserved_idle (idle : s.baseAddress = Pointer.null) :
    Reserved s ↔ Disciplined s.trace ∧ held s.trace = [] := by
  rw [Reserved, idle]
  rfl

def Holding (base : Nat) (s : AllocatorState build σ) : Prop :=
  s.baseAddress = Pointer.null ∧ Disciplined s.trace ∧ held s.trace = [base]

instance holding_expands (base : Nat) : Expands E (Holding base : AllocatorState build σ → Prop) where
  expand _ _ _ holding := holding

theorem registerFirstChunk_reserved {base : Nat} (holding : Holding base s)
    (nonnull : ¬ Pointer.isNull base = true)
    (ran : registerFirstChunk build E base s = .ok ((), s')) : Reserved s' := by
  refine registerFirstChunk_keeps ⟨holding.2.1, ?_⟩ ran
  rw [if_neg nonnull]
  exact holding.2.2

theorem allocateAddressSpace_reserves {base : Nat} (disciplined : Disciplined s.trace)
    (none : held s.trace = []) (ran : allocateAddressSpace build E s = .ok (base, s')) :
    s'.baseAddress = s.baseAddress ∧ Disciplined s'.trace ∧
      held s'.trace = if Pointer.isNull base then [] else [base] := by
  obtain ⟨rfl, rfl⟩ := Prod.mk.inj (Except.ok.inj ran)
  refine ⟨rfl, disciplined, ?_⟩
  simp only [held, none]

theorem freeAddressSpace_releases {base : Nat} (holding : Holding base s)
    (ran : freeAddressSpace build E base s = .ok ((), s')) :
    Reserved s' := by
  obtain ⟨idle, disciplined, holds⟩ := holding
  have member : base ∈ held s.trace := holds ▸ List.mem_singleton.mpr rfl
  have released : held (.freeAddressSpace base :: s.trace) = [] := by
    rw [held, holds, List.erase_cons_head]
  obtain ⟨-, rfl⟩ := Prod.mk.inj (Except.ok.inj ran)
  exact ⟨⟨member, disciplined⟩, by rw [idle]; exact released⟩

/-- An initialization keeps what it reserves at the base, or gives it back. -/
theorem initializeImpl_reserved {isOk : Bool} (idle : s.baseAddress = Pointer.null)
    (reserved : Reserved s) (ran : initializeImpl build E s = .ok (isOk, s')) : Reserved s' := by
  obtain ⟨disciplined, none⟩ := (reserved_idle idle).mp reserved
  obtain ⟨base, s₁, reserve, ran⟩ := bind_done ran
  obtain ⟨idle₁, disciplined₁, held₁⟩ := allocateAddressSpace_reserves disciplined none reserve
  split at ran
  · next null =>
    cases ran
    exact (reserved_idle (idle₁.trans idle)).mpr ⟨disciplined₁, by rw [held₁, if_pos null]⟩
  · next nonnull =>
    have holding₁ : Holding base s₁ := ⟨idle₁.trans idle, disciplined₁, by rw [held₁, if_neg nonnull]⟩
    obtain ⟨_, s₂, aligned, ran⟩ := bind_done ran
    have holding₂ : Holding base s₂ := Maintains.keeps s₁ _ s₂ holding₁ aligned
    obtain ⟨_, s₃, pointerAligned, ran⟩ := bind_done ran
    have holding₃ : Holding base s₃ := Maintains.keeps s₂ _ s₃ holding₂ pointerAligned
    obtain ⟨granted, s₄, request, ran⟩ := bind_done ran
    have holding₄ : Holding base s₄ := Maintains.keeps s₃ granted s₄ holding₃ request
    split at ran
    · obtain ⟨_, s₅, given, ran⟩ := bind_done ran
      cases ran
      exact freeAddressSpace_releases holding₄ given
    · obtain ⟨_, s₅, registered, ran⟩ := bind_done ran
      cases ran
      exact registerFirstChunk_reserved holding₄ nonnull registered

instance initializeAllocator_maintains :
    Maintains (Reserved : AllocatorState build σ → Prop) (initializeAllocator build E) where
  keeps s isOk s' reserved ran := by
    rw [initializeAllocator, bind_ok (get_apply s)] at ran
    split at ran
    · next null => exact initializeImpl_reserved (by simpa [Pointer.isNull, Pointer.null] using null) reserved ran
    · cases ran
      exact reserved

variable {session : Session build σ}

/-- The sessions that any calls lead to, lawful or not. -/
abbrev AnyReached (build : Build) (E : Env σ) : Session build σ → Prop :=
  Reachable (fun session => ∃ env memory, session = Session.start build env memory)
    (fun _ _ => True) (step E)

theorem AnyReached.reserved (reached : AnyReached build E session) : Reserved session.allocator := by
  refine Reachable.invariant (fun session => Reserved session.allocator) ?_ ?_ reached
  · rintro _ ⟨env, memory, rfl⟩
    exact ⟨trivial, rfl⟩
  · intro s op outcome s' reserved _ ran
    exact step_maintains reserved ran

/-- `Drop` releases every reservation once and nothing else exactly when there is a base. -/
theorem drop_releases_iff (reached : AnyReached build E session) :
    ∃ s', drop build E session.allocator = .ok ((), s') ∧
      (Released s'.trace ↔ session.allocator.baseAddress ≠ Pointer.null) := by
  obtain ⟨disciplined, holds⟩ := reached.reserved
  refine ⟨_, rfl, ?_⟩
  rw [released_iff]
  by_cases null : session.allocator.baseAddress = Pointer.null
  · refine iff_of_false ?_ (fun present => present null)
    rintro ⟨⟨member, _⟩, _⟩
    exact null_not_held _ (null ▸ member)
  · have present : ¬ Pointer.isNull session.allocator.baseAddress = true := by
      simpa [Pointer.isNull, Pointer.null] using null
    rw [if_neg present] at holds
    refine iff_of_true ⟨⟨?_, disciplined⟩, ?_⟩ null
    · rw [holds]
      exact List.mem_singleton.mpr rfl
    · rw [held, holds, List.erase_cons_head]

/-- An array that was allocated from is given back. -/
theorem drop_releases_sample : ∃ session outcome s',
    step sampleEnv (.alloc 1 2) sampleStart = .ok (outcome, session) ∧
      drop sampleBuild sampleEnv session.allocator = .ok ((), s') ∧ Released s'.trace := by
  obtain ⟨session, outcome, run, based, -⟩ := sample_based
  have reached : AnyReached sampleBuild sampleEnv session :=
    .step (.start ⟨(), fun _ => 0, rfl⟩) trivial run
  obtain ⟨s', dropped, released⟩ := drop_releases_iff reached
  exact ⟨session, outcome, s', run, dropped, released.mpr based⟩

/-- An allocator that is dropped unused frees the null pointer. -/
theorem drop_frees_null : AnyReached sampleBuild sampleEnv sampleStart ∧
    ∃ s', drop sampleBuild sampleEnv sampleStart.allocator = .ok ((), s') ∧
      s'.trace = [.freeAddressSpace Pointer.null] ∧ ¬ Released s'.trace := by
  refine ⟨.start ⟨(), fun _ => 0, rfl⟩, _, rfl, rfl, fun released => ?_⟩
  exact List.not_mem_nil (released.owned [] Pointer.null [] rfl)

end Invariant

end Picoalloc
