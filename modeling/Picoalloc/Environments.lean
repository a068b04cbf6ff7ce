import Picoalloc.Granting
import Picoalloc.Stores

/-!
Environments with a world behind them. The allocator reserves, asks for more at what it has
reserved and gives it back; it takes an answer of the environment for memory that the world
lets it use. Where the environment keeps its side, so does every session: no byte is touched,
by the allocator or by a client, that the world does not provide.
-/

namespace Picoalloc
open CheckedMachine ByteMemory Tilings

variable {build : Build} {σ : Type} {E : Env σ} {total : Nat} {memory : Memory}
  {session session' : Session build σ} {usable reserved : σ → Nat → Prop} {idle : σ → Prop}

def Covers (usable : σ → Nat → Prop) (env : σ) (base size : Nat) : Prop :=
  ∀ a, base ≤ a → a < base + 32 * size → usable env a

/-- The side of an environment: from an idle world it reserves a base or stays idle, at a
reserved base it grants what can be used from then on, and given back it is idle again. -/
structure Env.Backed (E : Env σ) (total : Nat) (usable reserved : σ → Nat → Prop)
    (idle : σ → Prop) : Prop where
  reserve : ∀ env, idle env →
    if (E.allocateAddressSpace env).1 = Pointer.null then idle (E.allocateAddressSpace env).2
    else reserved (E.allocateAddressSpace env).2 (E.allocateAddressSpace env).1
  grow : ∀ env base size, reserved env base → reserved (E.expandMemoryUntil env base size).2 base
  keep : ∀ env base size a, reserved env base → usable env a →
    usable (E.expandMemoryUntil env base size).2 a
  grant : ∀ env base size, reserved env base → size ≤ total →
    (E.expandMemoryUntil env base size).1 = true →
      Covers usable (E.expandMemoryUntil env base size).2 base size
  release : ∀ env base, reserved env base → idle (E.freeAddressSpace env base)

/-- The sessions that permitted calls lead to from an idle world. -/
abbrev BackedReached (build : Build) (E : Env σ) (idle : σ → Prop) (memory : Memory) :
    Session build σ → Prop :=
  Reachable (fun session => ∃ env, idle env ∧ session = Session.start build env memory) Permitted
    (step E)

/-- What the world provides in a session. Without a base `Drop` passes on the null that stands
there. -/
structure Provided (E : Env σ) (usable : σ → Nat → Prop) (idle : σ → Prop)
    (session : Session build σ) : Prop where
  space : session.allocator.baseAddress ≠ Pointer.null →
    Covers usable session.allocator.env session.allocator.baseAddress session.allocator.allocatedSpace
  blocks : ∀ handle pointer bytes, session.block handle = some (pointer, bytes) →
    ∀ i < bytes.length, usable session.allocator.env (pointer + i)
  unused : session.allocator.baseAddress = Pointer.null → idle session.allocator.env
  dropped : session.allocator.baseAddress ≠ Pointer.null →
    ∃ s', drop build E session.allocator = .ok ((), s') ∧ idle s'.env
  unbased : session.allocator.baseAddress = Pointer.null →
    ∃ s', drop build E session.allocator = .ok ((), s') ∧
      s'.env = E.freeAddressSpace session.allocator.env Pointer.null

section Standing

def Lent (total : Nat) (usable : σ → Nat → Prop) (trace : List Event) : Prop :=
  ∀ base size, .expandMemoryUntil base size true ∈ trace → size ≤ total →
    ∀ a, base ≤ a → a < base + 32 * size → ∃ env, usable env a

structure Standing (total : Nat) (usable reserved : σ → Nat → Prop) (s : AllocatorState build σ) :
    Prop where
  based : s.baseAddress ≠ Pointer.null
  reserved : reserved s.env s.baseAddress
  covers : Requests total s.trace →
    Covers usable s.env s.baseAddress (granted s.baseAddress s.trace)
  lent : Lent total usable s.trace

structure Fallow (idle : σ → Prop) (s : AllocatorState build σ) : Prop where
  null : s.baseAddress = Pointer.null
  idle : idle s.env
  ungranted : ∀ base size, .expandMemoryUntil base size true ∉ s.trace

variable {s s' : AllocatorState build σ}

instance standing_framed :
    Framed (Standing total usable reserved : AllocatorState build σ → Prop) where
  congr s s' env base trace _ standing := by
    constructor
    · rw [base]
      exact standing.based
    · rw [env, base]
      exact standing.reserved
    · rw [env, base, trace]
      exact standing.covers
    · rw [trace]
      exact standing.lent

instance standing_overwrites :
    Overwrites (Standing total usable reserved : AllocatorState build σ → Prop) where
  overwrite _ _ _ standing :=
    ⟨standing.based, standing.reserved, standing.covers, standing.lent⟩

theorem Env.Backed.covers (backed : E.Backed total usable reserved idle) {env : σ} {base size : Nat}
    {trace : List Event} (held : reserved env base)
    (covers : Requests total trace → Covers usable env base (granted base trace))
    (requests : Requests total
      (.expandMemoryUntil base size (E.expandMemoryUntil env base size).1 :: trace)) :
    Covers usable (E.expandMemoryUntil env base size).2 base
      (granted base (.expandMemoryUntil base size (E.expandMemoryUntil env base size).1 :: trace)) := by
  obtain ⟨-, within, requests⟩ := requests
  have kept : Covers usable (E.expandMemoryUntil env base size).2 base (granted base trace) :=
    fun a above below => backed.keep env base size a held (covers requests a above below)
  cases answer : (E.expandMemoryUntil env base size).1 with
  | false => exact kept
  | true =>
      rw [granted, if_pos rfl]
      intro a above below
      rcases max_choice size (granted base trace) with more | same
      · exact backed.grant env base size held within answer a above (more ▸ below)
      · exact kept a above (same ▸ below)

theorem Env.Backed.lends (backed : E.Backed total usable reserved idle) {env : σ} {base size : Nat}
    {trace : List Event} (held : reserved env base) (lent : Lent total usable trace) :
    Lent total usable
      (.expandMemoryUntil base size (E.expandMemoryUntil env base size).1 :: trace) := by
  intro place length member within a above below
  rcases List.mem_cons.mp member with same | earlier
  · injection same with here long answer
    subst here long
    exact ⟨_, backed.grant env place length held within answer.symm a above below⟩
  · exact lent place length earlier within a above below

theorem Env.Backed.grows (backed : E.Backed total usable reserved idle) :
    Grows E (Standing total usable reserved : AllocatorState build σ → Prop) where
  grow s size standing :=
    ⟨standing.based, backed.grow s.env s.baseAddress size standing.reserved,
      backed.covers standing.reserved standing.covers, backed.lends standing.reserved standing.lent⟩

instance standing_starts : Maintains (Standing total usable reserved : AllocatorState build σ → Prop)
    (initializeAllocator build E) where
  keeps s isOk s' standing ran := by
    rw [initializeAllocator, bind_ok (get_apply s), if_neg] at ran
    · cases ran
      exact standing
    · simpa [Pointer.isNull, Pointer.null] using standing.based

theorem granted_zero {trace : List Event}
    (ungranted : ∀ base size, .expandMemoryUntil base size true ∉ trace) (base : Nat) :
    granted base trace = 0 := by
  by_contra some_
  exact ungranted _ _ (granted_mem (Nat.pos_of_ne_zero some_))

theorem Env.Backed.starts (backed : E.Backed total usable reserved idle) {isOk : Bool}
    (fallow : Fallow idle s) (ran : initializeAllocator build E s = .ok (isOk, s')) :
    if isOk = true then Standing total usable reserved s' else Fallow idle s' := by
  obtain ⟨null, idles, ungranted⟩ := fallow
  rw [initializeAllocator, bind_ok (get_apply s), if_pos (by rw [null]; rfl)] at ran
  obtain ⟨base, s₁, reserve, ran⟩ := bind_done ran
  have reserves := backed.reserve s.env idles
  obtain ⟨rfl, rfl⟩ := Prod.mk.inj (Except.ok.inj reserve)
  -- reserving grants nothing
  have ungranted₁ : ∀ base size, .expandMemoryUntil base size true ∉
      Event.allocateAddressSpace (E.allocateAddressSpace s.env).1 :: s.trace := by
    intro base size member
    rcases List.mem_cons.mp member with same | earlier
    · cases same
    · exact ungranted base size earlier
  split at ran
  · next nothing =>
    rw [if_pos (by simpa [Pointer.isNull, Pointer.null] using nothing)] at reserves
    cases ran
    exact ⟨null, reserves, ungranted₁⟩
  · next nonnull =>
    rw [if_neg (by simpa [Pointer.isNull, Pointer.null] using nonnull)] at reserves
    obtain ⟨_, s₂, aligned, ran⟩ := bind_done ran
    obtain rfl := Maintains.same (fun _ => inferInstance) aligned
    obtain ⟨_, s₃, pointerAligned, ran⟩ := bind_done ran
    obtain rfl := Maintains.same (fun _ => inferInstance) pointerAligned
    obtain ⟨answer, s₄, request, ran⟩ := bind_done ran
    obtain ⟨rfl, rfl⟩ := Prod.mk.inj (Except.ok.inj request)
    -- the answer decides between giving the base back and keeping it
    have reserved₄ := backed.grow _ _ freeChunkHeaderSize reserves
    split at ran
    · next refused =>
      obtain ⟨_, s₅, given, ran⟩ := bind_done ran
      cases given
      cases ran
      refine ⟨null, backed.release _ _ reserved₄, fun other size member => ?_⟩
      rcases List.mem_cons.mp member with same | earlier
      · cases same
      rcases List.mem_cons.mp earlier with same | earlier
      · injection same with _ _ answer
        rw [← answer] at refused
        cases refused
      · exact ungranted₁ other size earlier
    · next granted =>
      obtain ⟨_, s₅, registered, ran⟩ := bind_done ran
      cases ran
      rw [if_pos rfl]
      refine registerFirstChunk_keeps (show Standing total usable reserved _ from
        ⟨?_, reserved₄, ?_, ?_⟩) registered
      · simpa [Pointer.isNull, Pointer.null] using nonnull
      · refine backed.covers reserves fun _ a above below => ?_
        rw [granted_zero ungranted₁] at below
        omega
      · exact backed.lends reserves fun base size member => absurd member (ungranted₁ base size)

theorem Env.Backed.allocates (backed : E.Backed total usable reserved idle) (fallow : Fallow idle s)
    {align size : Nat} {isCalloc : Bool} {result : Option Nat}
    (ran : allocImpl build E align size isCalloc s = .ok (result, s')) :
    Standing total usable reserved s' ∨ Fallow idle s' := by
  have grows : Grows E (Standing total usable reserved : AllocatorState build σ → Prop) := backed.grows
  rw [allocImpl] at ran
  split at ran
  · cases ran
    exact Or.inr fallow
  · obtain ⟨isOk, s₁, begun, ran⟩ := bind_done ran
    have starts := backed.starts fallow begun
    cases isOk with
    | false =>
        cases ran
        exact Or.inr starts
    | true => exact Or.inl (Maintains.keeps s₁ result s' starts ran)

/-- Every session has a base that the world knows of, or has left the world idle. -/
theorem BackedReached.backing (lawful : E.Lawful build.target total)
    (inplace : build.reallocInplace = true) (backed : E.Backed total usable reserved idle)
    (reached : BackedReached build E idle memory session) :
    Reached build E memory session ∧
      (Standing total usable reserved session.allocator ∨ Fallow idle session.allocator) := by
  have grows : Grows E (Standing total usable reserved : AllocatorState build σ → Prop) := backed.grows
  refine Reachable.invariant (fun session : Session build σ => Reached build E memory session ∧
    (Standing total usable reserved session.allocator ∨ Fallow idle session.allocator)) ?_ ?_ reached
  · rintro _ ⟨env, idles, rfl⟩
    exact ⟨.start ⟨env, rfl⟩, Or.inr ⟨rfl, idles, fun _ _ member => nomatch member⟩⟩
  · rintro session op outcome session' ⟨reached, standing | fallow⟩ permitted ran
    · exact ⟨.step reached permitted ran, Or.inl (step_maintains standing ran)⟩
    · refine ⟨.step reached permitted ran, ?_⟩
      -- without a base there is no heap, so that only an allocation is permitted
      have sound := reached.sound lawful inplace
      have idles := sound.resolve_right fun ⟨_, serves⟩ =>
        serves.represents.placed.nonnull.ne' fallow.null
      obtain ⟨isCalloc, align, size, rfl⟩ := idles.allocation permitted
      rw [allocation_reads] at ran
      obtain ⟨⟨result, s'⟩, run, done⟩ := result_done ran
      cases done
      exact backed.allocates fallow run

theorem requests_within {trace : List Event} (requests : Requests total trace) {base size : Nat}
    {answer : Bool} (member : .expandMemoryUntil base size answer ∈ trace) : size ≤ total := by
  induction trace with
  | nil => cases member
  | cons event trace ih =>
      rcases List.mem_cons.mp member with rfl | earlier
      · exact requests.2.1
      · cases event with
        | expandMemoryUntil => exact ih requests.2.2 earlier
        | allocateAddressSpace | freeAddressSpace => exact ih requests earlier

/-- Where only zeros can be used at first, what is granted is zero. -/
theorem BackedReached.zeroed (lawful : E.Lawful build.target total)
    (inplace : build.reallocInplace = true) (backed : E.Backed total usable reserved idle)
    (zero : ∀ env a, usable env a → memory a = 0)
    (reached : BackedReached build E idle memory session) :
    GrantsZeroed memory session.allocator.trace := by
  obtain ⟨reached, backing⟩ := reached.backing lawful inplace backed
  intro base size member i inside
  rcases backing with standing | fallow
  · obtain ⟨-, -, requests⟩ := granting_sound (reached.sound lawful inplace)
    obtain ⟨env, here⟩ := standing.lent base size member (requests_within requests member) (base + i)
      (Nat.le_add_right _ _) (Nat.add_lt_add_left inside base)
    exact zero env _ here
  · exact absurd member (fallow.ungranted base size)

end Standing

section Provision

/-- Where an environment keeps its side, the world provides whatever a session uses: the
allocated space and every block of the client. A session that has no base holds nothing of
the world, and neither does one that is dropped. -/
theorem BackedReached.provided (lawful : E.Lawful build.target total)
    (inplace : build.reallocInplace = true) (backed : E.Backed total usable reserved idle)
    (reached : BackedReached build E idle memory session) : Provided E usable idle session := by
  obtain ⟨reached, backing⟩ := reached.backing lawful inplace backed
  have sound := reached.sound lawful inplace
  obtain ⟨exact_, within, requests⟩ := granting_sound sound
  have space : session.allocator.baseAddress ≠ Pointer.null →
      Covers usable session.allocator.env session.allocator.baseAddress
        session.allocator.allocatedSpace := by
    intro based
    have standing := backing.resolve_right fun fallow => based fallow.null
    exact exact_ ▸ standing.covers requests
  constructor
  · exact space
  · intro handle pointer bytes held i inside
    rcases sound with idle | ⟨heap, serves⟩
    · rw [idle.block handle] at held
      cases held
    · obtain ⟨place, size, here, positive, rfl, -, rfl⟩ := serves.chunk_of_block held
      have materialized : place + size ≤ session.allocator.allocatedSpace :=
        (serves.represents.materialized here).2 rfl
      rw [slice_length] at inside
      refine space serves.represents.placed.nonnull.ne' _ ?_ ?_
      · simp only [State.unit]
        omega
      · simp only [State.unit, headerSize] at *
        omega
  · intro null
    exact (backing.resolve_left fun standing => standing.based null).idle
  · intro based
    have standing := backing.resolve_right fun fallow => based fallow.null
    exact ⟨_, rfl, backed.release _ _ standing.reserved⟩
  · intro null
    exact ⟨_, rfl, by rw [← null]⟩

end Provision

end Picoalloc
