import Picoalloc.Integrity
import Picoalloc.Resizing

/-!
The contract of `realloc` with in-place resizing. The alignment that a pointer was
obtained with is kept beside the session: resizing in place does not look at it.
-/

namespace Picoalloc
open CheckedMachine ByteMemory Tilings

variable {build : Build} {σ : Type} {E : Env σ} {total : Nat} {memory : Memory}
  {session session' : Session build σ}

/-- The alignments that live pointers were obtained with, after a call. -/
def track (op : Op) (session session' : Session build σ) (aligns : Nat → Option Nat) :
    Nat → Option Nat :=
  match op with
  | .alloc align _ | .allocZeroed align _ => Function.update aligns session.calls (some align)
  | .realloc handle align _ =>
      if session'.live handle = session.live handle then aligns
      else Function.update aligns handle (some align)
  | _ => aligns

def trackedStep (E : Env σ) (op : Op) (tracked : Session build σ × (Nat → Option Nat)) :
    Checked (Outcome × Session build σ × (Nat → Option Nat)) := do
  let (outcome, session') ← step E op tracked.1
  return (outcome, session', track op tracked.1 session' tracked.2)

abbrev TrackedReached (build : Build) (E : Env σ) (memory : Memory) :
    Session build σ × (Nat → Option Nat) → Prop :=
  Reachable (fun tracked => ∃ env, tracked = (Session.start build env memory, fun _ => none))
    (fun op tracked => Permitted op tracked.1) (trackedStep E)

/-- What `realloc` does with a payload, an alignment and a new size. A pointer that it returns
stands for the chunk of the old one, which is no longer allocated if it is another one. -/
structure ReallocsExactly (E : Env σ) (total : Nat) (session : Session build σ)
    (handle pointer align : Nat) (before : List Chunk) (usable : Nat) (after : List Chunk)
    (newSize : Nat) : Prop where
  same : newSize = usable → realloc build E pointer align newSize session.allocator =
    .ok (some pointer, session.allocator)
  empty : newSize = 0 → usable ≠ 0 → ∃ s', free build E pointer session.allocator = .ok ((), s') ∧
    realloc build E pointer align newSize session.allocator = .ok (none, s')
  aligned : ∀ q session', step E (.realloc handle align newSize) session =
    .ok (.pointer (some q), session') → q % Size.bytes align = 0
  sized : ∀ q session', step E (.realloc handle align newSize) session =
    .ok (.pointer (some q), session') →
      session'.live handle = some q ∧
        usableSizeImpl build q session'.allocator = .ok (newSize, session'.allocator)
  copied : ∀ q session', step E (.realloc handle align newSize) session =
    .ok (.pointer (some q), session') → ∀ i < 32 * min usable newSize,
      session'.allocator.memory (q + i) = session.allocator.memory (pointer + i)
  live : ∀ q session', step E (.realloc handle align newSize) session =
    .ok (.pointer (some q), session') → ((∃ other, session'.live other = some pointer) ↔ q = pointer)
  chunks : ∀ q session', step E (.realloc handle align newSize) session =
    .ok (.pointer (some q), session') → ∀ pointer' size,
      session'.allocator.Allocated total pointer' size ↔
        (pointer' = q ∧ size = newSize + headerSize) ∨
          (pointer' ≠ pointer ∧ session.allocator.Allocated total pointer' size)
  released : ∀ q session', step E (.realloc handle align newSize) session =
    .ok (.pointer (some q), session') →
      ((∃ size, session'.allocator.Allocated total pointer size) ↔ q = pointer)
  apart : ∀ q session', step E (.realloc handle align newSize) session =
    .ok (.pointer (some q), session') → ∀ other pointer' length, other ≠ handle →
      session'.live other = some pointer' →
      usableSize build pointer' session'.allocator = .ok (length, session'.allocator) →
      q + 32 * newSize ≤ pointer' ∨ pointer' + length ≤ q
  inPlace : newSize ≠ 0 → (newSize < usable ∨ ∃ next rest, after = ⟨next, false⟩ :: rest ∧
      newSize ≤ usable + next ∧
      Grants E session.allocator (span Chunk.size before + (newSize + headerSize) +
        if newSize < usable + next then freeChunkHeaderSize else 0)) →
    ∃ s', realloc build E pointer align newSize session.allocator = .ok (some pointer, s')

section Aligned

variable {s s' : AllocatorState build σ} {heap : Heap} {place size align newSize q : Nat}

theorem reallocMove_aligned (constant : ∀ e, E.totalSpace e = total)
    (represents : Represents total s heap) {pointer currentSize : Nat}
    (ran : reallocMove build E pointer align newSize currentSize s = .ok (some q, s')) :
    q % Size.bytes align = 0 := by
  obtain ⟨result, s₁, allocated, ran⟩ := bind_done ran
  obtain ⟨result', s₁', run, effect⟩ :=
    allocImpl_effect (E := E) constant represents false align newSize
  cases (allocated.symm.trans run)
  cases result with
  | none => cases ran
  | some moved =>
      obtain ⟨_, _, copied, ran⟩ := bind_done ran
      obtain ⟨_, _, freed, ran⟩ := bind_done ran
      cases ran
      obtain ⟨_, _, rfl, -, returned⟩ := effect
      exact returned.aligned

theorem realloc_aligned (constant : ∀ e, E.totalSpace e = total)
    (represents : Represents total s heap) (here : heap.Allots place size)
    (ran : realloc build E (s.unit (place + headerSize)) align newSize s = .ok (some q, s')) :
    q = s.unit (place + headerSize) ∨ q % Size.bytes align = 0 := by
  rw [realloc, bind_ok (usableSizeImpl_ok represents here)] at ran
  split at ran
  · cases ran
    exact Or.inl rfl
  split at ran
  · obtain ⟨_, _, freed, ran⟩ := bind_done ran
    cases ran
  split at ran
  · split at ran
    · obtain ⟨_, _, shrunk, ran⟩ := bind_done ran
      cases ran
      exact Or.inl rfl
    · obtain ⟨grown, s₁, run, ran⟩ := bind_done ran
      split at ran
      · cases ran
        exact Or.inl rfl
      · next failed =>
        obtain ⟨grown', s₁', run', effect⟩ := growInplace_effect constant represents here newSize
        cases (run.symm.trans run')
        cases grown with
        | some => exact absurd rfl failed
        | none => exact Or.inr (reallocMove_aligned constant effect.2 ran)
  · exact Or.inr (reallocMove_aligned constant represents ran)

end Aligned

section Tracking

variable {aligns : Nat → Option Nat} {handle pointer align newSize q : Nat} {op : Op}
  {outcome : Outcome}

theorem step_realloc (live : session.live handle = some pointer)
    (ran : step E (.realloc handle align newSize) session = .ok (.pointer (some q), session')) :
    realloc build E pointer align newSize session.allocator = .ok (some q, session'.allocator) ∧
      session' = session.rebind handle (some q) (session.prefixOf handle (32 * newSize))
        session'.allocator := by
  simp only [step, Session.onLive, live] at ran
  obtain ⟨⟨result, s'⟩, run, ran⟩ := result_done ran
  dsimp only at ran
  split at ran
  · cases ran
    exact ⟨run, rfl⟩
  · split at ran <;> cases ran

def AlignedLive (tracked : Session build σ × (Nat → Option Nat)) : Prop :=
  ∀ handle align pointer, tracked.2 handle = some align → tracked.1.live handle = some pointer →
    pointer % Size.bytes align = 0

theorem track_allocation {isCalloc : Bool} {size : Nat} (lawful : E.Lawful build.target total)
    (sound : Sound total memory session) (aligned : AlignedLive (session, aligns))
    {pointer : Option Nat} {s' : AllocatorState build σ}
    (ran : step E (Op.allocation isCalloc align size) session =
      .ok (.pointer pointer, session.allocated pointer s')) :
    AlignedLive (session.allocated pointer s', Function.update aligns session.calls (some align)) := by
  intro handle a p asked live
  dsimp only [Session.allocated, Session.rebind] at asked live
  by_cases new : handle = session.calls
  · subst new
    rw [Function.update_self] at asked live
    cases asked
    subst live
    exact (sound.granted lawful ran).2.1
  · rw [Function.update_of_ne new] at asked live
    exact aligned handle a p asked live

theorem aligned_rebind {aligns' : Nat → Option Nat} {pointer' : Option Nat}
    {contents : Nat → Option UInt8} {s' : AllocatorState build σ}
    (aligned : AlignedLive (session, aligns)) (others : ∀ other ≠ handle, aligns' other = aligns other)
    (here : ∀ align pointer, aligns' handle = some align → pointer' = some pointer →
      pointer % Size.bytes align = 0) :
    AlignedLive (session.rebind handle pointer' contents s', aligns') := by
  intro other a p asked live
  dsimp only [Session.rebind] at asked live
  by_cases mine : other = handle
  · subst mine
    rw [Function.update_self] at live
    exact here a p asked live
  · rw [Function.update_of_ne mine] at live
    rw [others other mine] at asked
    exact aligned other a p asked live

theorem track_aligned (lawful : E.Lawful build.target total) (sound : Sound total memory session)
    (aligned : AlignedLive (session, aligns)) (ran : step E op session = .ok (outcome, session')) :
    AlignedLive (session', track op session session' aligns) := by
  cases op with
  | alloc align size =>
      obtain ⟨⟨pointer, s'⟩, run, done⟩ := result_done ran
      cases done
      have called : step E (Op.allocation false align size) session =
        .ok (.pointer pointer, session.allocated pointer s') := ran
      exact track_allocation lawful sound aligned called
  | allocZeroed align size =>
      obtain ⟨⟨pointer, s'⟩, run, done⟩ := result_done ran
      cases done
      have called : step E (Op.allocation true align size) session =
        .ok (.pointer pointer, session.allocated pointer s') := ran
      exact track_allocation lawful sound aligned called
  | free handle =>
      obtain rfl | ⟨pointer, live, ran⟩ := onLive_done ran
      · exact aligned
      obtain ⟨⟨_, s'⟩, run, done⟩ := result_done ran
      cases done
      exact aligned_rebind aligned (fun _ _ => rfl) fun _ _ _ released => nomatch released
  | shrinkInplace handle newSize =>
      obtain rfl | ⟨pointer, live, ran⟩ := onLive_done ran
      · exact aligned
      obtain ⟨⟨_, s'⟩, run, done⟩ := result_done ran
      dsimp only at done
      split at done
      · cases done
        exact aligned_rebind aligned (fun _ _ => rfl) fun _ _ _ released => nomatch released
      · cases done
        exact aligned_rebind aligned (fun _ _ => rfl) fun a p asked same =>
        aligned handle a p asked (live.trans same)
  | growInplace handle newSize =>
      obtain rfl | ⟨pointer, live, ran⟩ := onLive_done ran
      · exact aligned
      obtain ⟨⟨_, s'⟩, run, done⟩ := result_done ran
      cases done
      exact aligned
  | realloc handle align newSize =>
      rw [track]
      obtain rfl | ⟨pointer, live, done⟩ := onLive_done ran
      · rw [if_pos rfl]
        exact aligned
      obtain ⟨⟨result, s'⟩, run, done⟩ := result_done done
      have others : ∀ other ≠ handle, Function.update aligns handle (some align) other = aligns other :=
        fun other different => Function.update_of_ne different _ _
      dsimp only at done
      split at done
      · next moved =>
        cases done
        split
        -- the address is the old one, so it keeps the alignment it was asked for with
        · next same =>
          refine aligned_rebind aligned (fun _ _ => rfl) fun a p asked bound => ?_
          exact aligned handle a p asked (same.symm.trans ((Function.update_self _ _ _).trans bound))
        -- a new address comes from an allocation with the alignment given here
        · next different =>
          refine aligned_rebind aligned others fun a p asked bound => ?_
          rw [Function.update_self] at asked
          cases asked
          cases bound
          obtain ⟨heap, place, size, serves, here, rfl⟩ := sound.serves live
          rcases realloc_aligned lawful.constant serves.represents here run with rfl | moved
          · exact (different ((Function.update_self handle _ session.live).trans live.symm)).elim
          · exact moved
      · split at done
        · cases done
          rw [if_neg]
          · exact aligned_rebind aligned others fun _ _ _ released => nomatch released
          · rw [live]
            exact fun impossible => nomatch (Function.update_self _ _ _).symm.trans impossible
        · cases done
          rw [if_pos rfl]
          exact aligned
  | write handle index byte =>
      obtain rfl | ⟨pointer, live, ran⟩ := onLive_done ran
      · exact aligned
      cases ran
      exact aligned_rebind aligned (fun _ _ => rfl) fun a p asked same =>
        aligned handle a p asked (live.trans same)

theorem TrackedReached.sound (lawful : E.Lawful build.target total)
    (inplace : build.reallocInplace = true) {tracked : Session build σ × (Nat → Option Nat)}
    (reached : TrackedReached build E memory tracked) :
    Sound total memory tracked.1 ∧ AlignedLive tracked := by
  refine reached.invariant (fun tracked => Sound total memory tracked.1 ∧ AlignedLive tracked) ?_ ?_
  · rintro _ ⟨env, rfl⟩
    refine ⟨Or.inl (start_idle env memory), fun handle align pointer asked => ?_⟩
    cases asked
  · rintro ⟨session, aligns⟩ op outcome ⟨session', aligns'⟩ ⟨sound, aligned⟩ permitted ran
    obtain ⟨⟨outcome', next⟩, run, done⟩ := result_done ran
    cases done
    refine ⟨?_, track_aligned lawful sound aligned run⟩
    obtain ⟨_, _, run', sound'⟩ :=
      step_sound lawful sound permitted (copies_inplace inplace op session)
    obtain ⟨rfl, rfl⟩ := Prod.mk.inj (Except.ok.inj (run'.symm.trans run))
    exact sound'

theorem TrackedReached.next (reached : TrackedReached build E memory (session, aligns))
    (permitted : Permitted op session) (ran : step E op session = .ok (outcome, session')) :
    TrackedReached build E memory (session', track op session session' aligns) := by
  have tracked : trackedStep E op (session, aligns) =
      .ok (outcome, session', track op session session' aligns) := by
    rw [trackedStep, ran]
    rfl
  exact .step reached permitted tracked

end Tracking

section Contract

variable {aligns : Nat → Option Nat} {handle pointer align newSize q : Nat} {op : Op}
  {outcome : Outcome} {heap heap' : Heap} {before after : List Chunk} {usable : Nat}

theorem Turn.reallocated
    (turn : Turn total session heap (.realloc handle align newSize) (.pointer (some q)) session' heap') :
    ∃ place size place', heap.Allots place size ∧
      session.live handle = some (session.allocator.unit (place + headerSize)) ∧
      q = session.allocator.unit (place' + headerSize) ∧
      Effect total heap heap' (some (place, size)) (some (place', newSize + headerSize))
        session.allocator session'.allocator := by
  generalize called : Op.realloc handle align newSize = op at turn
  generalize answered : Outcome.pointer (some q) = outcome at turn
  cases turn with
  | moved here live effect =>
      cases called
      cases answered
      exact ⟨_, _, _, here, live, rfl, effect⟩
  | @granted _ _ _ _ isCalloc _ _ call =>
      subst call
      cases isCalloc <;> cases called
  | refused => cases answered
  | freed here live call =>
      rcases call with ⟨-, rfl⟩ | ⟨_, -, rfl⟩ <;> cases answered
  | failed live call =>
      rcases call with ⟨-, rfl⟩ | ⟨_, -, rfl, -⟩ <;> cases answered
  | shrunk | grown | wrote => cases called

/-- Shrinking never moves, and growing does not where there is room. -/
theorem realloc_inPlace (constant : ∀ e, E.totalSpace e = total) (inplace : build.reallocInplace = true)
    {s : AllocatorState build σ} (represents : Represents total s heap)
    (here : heap.chunks = before ++ ⟨usable + headerSize, true⟩ :: after) (nonempty : newSize ≠ 0)
    (fits : newSize < usable ∨ ∃ next rest, after = ⟨next, false⟩ :: rest ∧ newSize ≤ usable + next ∧
      Grants E s (span Chunk.size before + (newSize + headerSize) +
        if newSize < usable + next then freeChunkHeaderSize else 0)) :
    ∃ s', realloc build E (s.unit (span Chunk.size before + headerSize)) align newSize s =
      .ok (some (s.unit (span Chunk.size before + headerSize)), s') := by
  have allots : heap.Allots (span Chunk.size before) (usable + headerSize) := chunkAt_here here
  have read := usableSizeImpl_ok represents allots
  rw [Nat.add_sub_cancel] at read
  have small := represents.placed.small
  have tiles := (represents.holds here).tiles
  rw [realloc, bind_ok read]
  by_cases same : newSize = usable
  · rw [if_pos same]
    exact ⟨s, rfl⟩
  rw [if_neg same, if_neg (by simp [Size.isEmpty, nonempty]), if_pos inplace]
  by_cases less : newSize < usable
  · have bound : newSize + headerSize < 2 ^ sizeBits := by
      simp only [headerSize, sizeBits, unitLimit] at *
      omega
    obtain ⟨s', run, -⟩ := (shrinkInplace_cases (E := E) constant represents here bound).cut nonempty less
    rw [if_pos less, bind_ok run]
    exact ⟨s', rfl⟩
  · obtain ⟨next, rest, rfl, enough, grants⟩ := fits.resolve_left less
    obtain ⟨result, s', run, grows⟩ := growInplace_cases (E := E) constant represents here newSize
    have grown : result.isSome = true := by
      refine grows.success.mpr ⟨?_, Or.inr ⟨next, rest, rfl, enough, grants⟩⟩
      simp only [span_cons, headerSize, sizeBits, unitLimit] at *
      omega
    rw [if_neg less, bind_ok run, if_pos grown]
    exact ⟨s', rfl⟩

theorem realloc_cases (lawful : E.Lawful build.target total) (inplace : build.reallocInplace = true)
    (serves : Serves total memory session heap) (aligned : pointer % Size.bytes align = 0)
    (live : session.live handle = some pointer)
    (here : heap.chunks = before ++ ⟨usable + headerSize, true⟩ :: after)
    (address : pointer = session.allocator.unit (span Chunk.size before + headerSize)) (newSize : Nat) :
    ReallocsExactly E total session handle pointer align before usable after newSize := by
  have represents := serves.represents
  have allots : heap.Allots (span Chunk.size before) (usable + headerSize) := chunkAt_here here
  have read := usableSizeImpl_ok represents allots
  rw [Nat.add_sub_cancel, ← address] at read
  have permitted : Permitted (.realloc handle align newSize) session := by
    rw [Permitted, live]
    exact Option.some_ne_none _
  -- whenever a pointer is returned, the goals below read the same turn, each in its own way
  have turns : ∀ q session', step E (.realloc handle align newSize) session =
      .ok (.pointer (some q), session') → ∃ heap' place, Serves total memory session' heap' ∧
        q = session.allocator.unit (place + headerSize) ∧
        session'.live = Function.update session.live handle (some q) ∧
        Effect total heap heap' (some (span Chunk.size before, usable + headerSize))
          (some (place, newSize + headerSize)) session.allocator session'.allocator := by
    intro q session' ran
    obtain ⟨heap', turn, serves'⟩ := serves.turn lawful.constant permitted
      (copies_inplace inplace _ session) ran
    obtain ⟨place, size, place', there, live', rfl, effect⟩ := turn.reallocated
    have same := Option.some.inj (live'.symm.trans live)
    rw [address, unit_inj] at same
    obtain rfl : place = span Chunk.size before := by omega
    obtain rfl := represents.valid.allots_unique there allots
    refine ⟨heap', place', serves', rfl, ?_, effect⟩
    rw [(step_realloc live ran).2]
    rfl
  have exchanged : ∀ q session', step E (.realloc handle align newSize) session =
      .ok (.pointer (some q), session') → ∀ pointer' size,
        session'.allocator.Allocated total pointer' size ↔
          (pointer' = q ∧ size = newSize + headerSize) ∨
            (pointer' ≠ pointer ∧ session.allocator.Allocated total pointer' size) := by
    intro q session' ran pointer' size
    obtain ⟨heap', place, -, rfl, -, effect⟩ := turns q session' ran
    rw [address]
    exact effect.allocated represents pointer' size
  constructor
  · rintro rfl
    rw [realloc, bind_ok read, if_pos rfl]
    rfl
  · rintro rfl some_
    obtain ⟨s', freed, -⟩ := free_effect (E := E) lawful.constant represents allots
    rw [← address] at freed
    refine ⟨s', freed, ?_⟩
    rw [realloc, bind_ok read, if_neg some_.symm, if_pos (show Size.isEmpty 0 = true from rfl),
      bind_ok freed]
    rfl
  · intro q session' ran
    have run := (step_realloc live ran).1
    rw [address] at run
    rcases realloc_aligned lawful.constant represents allots run with same | moved
    · rw [same, ← address]
      exact aligned
    · exact moved
  · intro q session' ran
    obtain ⟨heap', place, serves', rfl, bound, effect⟩ := turns q session' ran
    have there : heap'.Allots place (newSize + headerSize) := (effect.allots _ _).mpr (Or.inl rfl)
    have usable' := usableSizeImpl_ok effect.represents there
    rw [effect.keeps.unit, Nat.add_sub_cancel] at usable'
    exact ⟨by rw [bound, Function.update_self], usable'⟩
  · intro q session' ran i inside
    obtain ⟨heap', place, serves', rfl, bound, effect⟩ := turns q session' ran
    rw [address]
    refine effect.carried _ rfl _ rfl i ?_
    simp only [headerSize]
    omega
  · intro q session' ran
    obtain ⟨heap', place, serves', same, bound, effect⟩ := turns q session' ran
    constructor
    · rintro ⟨other, alive⟩
      rw [bound] at alive
      by_cases mine : other = handle
      · rw [mine, Function.update_self] at alive
        exact Option.some.inj alive
      · rw [Function.update_of_ne mine] at alive
        exact absurd (serves.distinct other handle pointer alive live) mine
    · rintro rfl
      exact ⟨handle, by rw [bound, Function.update_self]⟩
  · exact exchanged
  · intro q session' ran
    constructor
    · rintro ⟨size, allocated⟩
      rcases (exchanged q session' ran pointer size).mp allocated with ⟨same, -⟩ | ⟨impossible, -⟩
      · exact same.symm
      · exact absurd rfl impossible
    · rintro rfl
      exact ⟨_, (exchanged q session' ran q _).mpr (Or.inl ⟨rfl, rfl⟩)⟩
  · intro q session' ran other pointer' length different alive sized
    obtain ⟨heap', place, serves', rfl, bound, effect⟩ := turns q session' ran
    have there : heap'.Allots place (newSize + headerSize) := (effect.allots _ _).mpr (Or.inl rfl)
    have usable' := usableSize_ok effect.represents there
    rw [effect.keeps.unit, Nat.add_sub_cancel] at usable'
    exact serves'.apart.disjoint handle other _ pointer' _ length different.symm
      (by rw [bound, Function.update_self]) alive usable' sized
  · intro nonempty fits
    rw [address]
    exact realloc_inPlace lawful.constant inplace represents here nonempty fits

/-- What `realloc` does with a live pointer of the alignment that it is given. -/
theorem Sound.reallocs (lawful : E.Lawful build.target total) (inplace : build.reallocInplace = true)
    (sound : Sound total memory session) (live : session.live handle = some pointer)
    (aligned : pointer % Size.bytes align = 0) (newSize : Nat) :
    ∃ before usable after, Payload total session.allocator pointer before usable after ∧
      ReallocsExactly E total session handle pointer align before usable after newSize := by
  obtain ⟨heap, place, size, serves, here, rfl⟩ := sound.serves live
  obtain ⟨before, usable, after, chunks, payload⟩ := serves.represents.payload here
  exact ⟨before, usable, after, payload,
    realloc_cases lawful inplace serves aligned live chunks payload.address newSize⟩

/-- The contract of `realloc` on pointers obtained with the same alignment. -/
theorem realloc_contract (lawful : E.Lawful build.target total) (inplace : build.reallocInplace = true)
    (reached : TrackedReached build E memory (session, aligns))
    (live : session.live handle = some pointer) (obtained : aligns handle = some align)
    (newSize : Nat) :
    ∃ before usable after, Payload total session.allocator pointer before usable after ∧
      ReallocsExactly E total session handle pointer align before usable after newSize := by
  obtain ⟨sound, aligned⟩ := reached.sound lawful inplace
  exact sound.reallocs lawful inplace live (aligned handle align pointer obtained live) newSize

theorem sample_tracked : ∃ session pointer outcome,
    step sampleEnv (.alloc 1 2) sampleStart = .ok (outcome, session) ∧
      session.live 0 = some pointer ∧ TrackedReached sampleBuild sampleEnv (fun _ => 0)
        (session, Function.update (fun _ => none) 0 (some 1)) := by
  obtain ⟨session, pointer, outcome, run, live, -⟩ := sample_allocated
  have tracked : trackedStep sampleEnv (.alloc 1 2) (sampleStart, fun _ => none) =
      .ok (outcome, session, Function.update (fun _ => none) 0 (some 1)) := by
    rw [trackedStep, run]
    rfl
  exact ⟨session, pointer, outcome, run, live,
    .step (.start ⟨(), rfl⟩) (show Permitted (.alloc 1 2) sampleStart from trivial) tracked⟩

/-- A chunk behind the two units keeps them from growing, so that they move. -/
theorem realloc_contract_sample : ∃ session₁ session session' outcome₁ outcome,
    step sampleEnv (.alloc 1 2) sampleStart = .ok (outcome₁, session₁) ∧
      step sampleEnv (.alloc 1 0) session₁ = .ok (outcome, session) ∧
      step sampleEnv (.realloc 0 1 3) session = .ok (.pointer (some 192), session') ∧
      ∃ before usable after, Payload 8 session.allocator 64 before usable after ∧
        ReallocsExactly sampleEnv 8 session 0 64 1 before usable after 3 := by
  obtain ⟨⟨outcome₁, session₁⟩, first, passed⟩ := check_ok
    (show check (fun result => check (fun next => next.2.live 0 == some 64 &&
          check (fun last => last.1 == .pointer (some 192)) (step sampleEnv (.realloc 0 1 3) next.2))
        (step sampleEnv (.alloc 1 0) result.2))
      (step sampleEnv (.alloc 1 2) sampleStart) = true by decide +kernel)
  obtain ⟨⟨outcome, session⟩, second, passed⟩ := check_ok passed
  simp only [Bool.and_eq_true, beq_iff_eq] at passed
  obtain ⟨live, moves⟩ := passed
  obtain ⟨⟨answer, session'⟩, moved, returned⟩ := check_ok moves
  obtain rfl : answer = .pointer (some 192) := by simpa using returned
  have start : TrackedReached sampleBuild sampleEnv (fun _ => 0) (sampleStart, fun _ => none) :=
    .start ⟨(), rfl⟩
  have reached := (start.next (show Permitted (.alloc 1 2) sampleStart from trivial) first).next
    (show Permitted (.alloc 1 0) session₁ from trivial) second
  refine ⟨session₁, session, session', outcome₁, outcome, first, second, moved,
    realloc_contract sample_lawful rfl reached live ?_ 3⟩
  simp only [track, Function.update_apply]
  split <;> rfl

end Contract

end Picoalloc
