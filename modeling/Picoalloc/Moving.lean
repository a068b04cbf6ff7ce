import Picoalloc.Fitting
import Picoalloc.Reallocation

/-!
`realloc` in the build without in-place resizing. Every change of size goes through the
path that was written for growing, which copies the whole of the old payload: exactly
when the new one is smaller, bytes behind it are overwritten.
-/

namespace Picoalloc
open CheckedMachine ByteMemory Tilings

variable {build : Build} {σ : Type} {E : Env σ} {total : Nat} {memory : Memory}
  {session session' : Session build σ}

def DeclinesSize (E : Env σ) (total : Nat) (s : AllocatorState build σ) (align size : Nat) : Prop :=
  Declines E total s align size (Bins.binFrom build.target (Heap.minSize align size))
    (Bins.binOf build.target (Heap.minSize align size))

def Outgrows (E : Env σ) (total : Nat) (op : Op) (session : Session build σ) : Prop :=
  match op with
  | .realloc handle align newSize => newSize = 0 ∨ ∀ pointer usable,
      session.live handle = some pointer →
      usableSizeImpl build pointer session.allocator = .ok (usable, session.allocator) →
      usable ≤ newSize ∨ DeclinesSize E total session.allocator align newSize
  | _ => True

/-- The sessions of permitted calls of which no `realloc` makes a payload smaller. -/
abbrev OutgrowingReached (build : Build) (E : Env σ) (total : Nat) (memory : Memory) :
    Session build σ → Prop :=
  Reachable (fun session => ∃ env, session = Session.start build env memory)
    (fun op session => Permitted op session ∧ Outgrows E total op session) (step E)

/-- What a `realloc` that returned a pointer has to leave behind. -/
structure Moved (total : Nat) (session session' : Session build σ)
    (handle pointer usable newSize q : Nat) : Prop where
  sized : usableSizeImpl build q session'.allocator = .ok (newSize, session'.allocator)
  copied : ∀ i < 32 * min usable newSize,
    session'.allocator.memory (q + i) = session.allocator.memory (pointer + i)
  writes : ∃ written, session'.allocator.payloadWrites = written ++ session.allocator.payloadWrites ∧
    ∀ range ∈ written, q ≤ range.1 ∧ range.1 + range.2 ≤ q + 32 * newSize
  others : ∀ other pointer' length, other ≠ handle → session.live other = some pointer' →
    usableSize build pointer' session.allocator = .ok (length, session.allocator) →
    session'.live other = some pointer' ∧
      usableSize build pointer' session'.allocator = .ok (length, session'.allocator) ∧
      ∀ i < length, session'.allocator.memory (pointer' + i) = session.allocator.memory (pointer' + i)
  wellFormed : WellFormed total session'.allocator
  moved : session'.live handle = some q
  released : ∀ other, session'.live other ≠ some pointer
  freed : ∀ length, ¬ session'.allocator.Allocated total pointer length

def MovesSafely (E : Env σ) (total : Nat) (session : Session build σ)
    (handle pointer align usable newSize : Nat) : Prop :=
  ∃ outcome session', step E (.realloc handle align newSize) session = .ok (outcome, session') ∧
    ∀ q, outcome = .pointer (some q) → Moved total session session' handle pointer usable newSize q

section Runs

variable {s s' : AllocatorState build σ} {heap : Heap} {place size align newSize q : Nat}

theorem alloc_declines (constant : ∀ e, E.totalSpace e = total) (represents : Represents total s heap)
    (align newSize : Nat) : ∃ result s', alloc build E align newSize s = .ok (result, s') ∧
      (result = none ↔ DeclinesSize E total s align newSize) := by
  obtain ⟨result, s', run, exactly⟩ := allocImpl_cases constant represents align newSize false
  exact ⟨result, s', run, exactly.refused⟩

theorem Sound.copies {op : Op} (constant : ∀ e, E.totalSpace e = total)
    (sound : Sound total memory session) (outgrows : Outgrows E total op session) :
    Copies E op session := by
  cases op with
  | realloc handle align newSize =>
      intro pointer usable live sized
      obtain ⟨heap, place, size, serves, here, rfl⟩ := sound.serves live
      rcases outgrows with empty | outgrows
      · exact Or.inr (Or.inl empty)
      rcases outgrows _ usable live sized with larger | declined
      · exact Or.inr (Or.inr (Or.inl larger))
      · obtain ⟨result, s', run, none⟩ := alloc_declines constant serves.represents align newSize
        rw [none.mpr declined] at run
        exact Or.inr (Or.inr (Or.inr ⟨s', run⟩))
  | _ => trivial

theorem OutgrowingReached.sound (lawful : E.Lawful build.target total)
    (reached : OutgrowingReached build E total memory session) : Sound total memory session := by
  refine reached.invariant (Sound total memory) ?_ fun s op outcome s' sound allowed stepped => ?_
  · rintro _ ⟨env, rfl⟩
    exact Or.inl (start_idle env memory)
  · obtain ⟨outcome', session', run, sound'⟩ :=
      step_sound lawful sound allowed.1 (sound.copies lawful.constant allowed.2)
    obtain ⟨_, rfl⟩ := Prod.mk.inj (Except.ok.inj (stepped.symm.trans run))
    exact sound'

end Runs

section Copying

variable {s s' : AllocatorState build σ} {pointer align newSize currentSize q : Nat}

def Logged (log : List (Nat × Nat)) (s : AllocatorState build σ) : Prop :=
  s.payloadWrites = log

instance logged_anchored (log : List (Nat × Nat)) :
    Anchored (Logged log : AllocatorState build σ → Prop) where
  congr _ _ _ _ writes logged := writes.trans logged

theorem copyPayload_logs {source destination length : Nat}
    (ran : copyPayload build source destination length s = .ok ((), s')) :
    s'.payloadWrites = (destination, length) :: s.payloadWrites := by
  rw [copyPayload] at ran
  split at ran
  · cases ran
  · split at ran
    · cases ran
      rfl
    · cases ran

theorem reallocMove_logs
    (ran : reallocMove build E pointer align newSize currentSize s = .ok (some q, s')) :
    ∃ s₁, alloc build E align newSize s = .ok (some q, s₁) ∧
      s'.payloadWrites = (q, Size.bytes currentSize) :: s₁.payloadWrites := by
  obtain ⟨result, s₁, allocated, ran⟩ := bind_done ran
  cases result with
  | none => cases ran
  | some moved =>
      obtain ⟨_, s₂, copied, ran⟩ := bind_done ran
      obtain ⟨_, s₃, freed, ran⟩ := bind_done ran
      cases ran
      have kept : Maintains (Logged ((q, Size.bytes currentSize) :: s₁.payloadWrites))
          (free build E pointer) := inferInstance
      exact ⟨s₁, allocated, kept.keeps _ _ _ (copyPayload_logs copied) freed⟩

end Copying

section Moves

variable {handle pointer align usable newSize q : Nat} {heap heap' : Heap} {place size place' : Nat}

theorem realloc_move (moves : build.reallocInplace = false) {s : AllocatorState build σ}
    (sized : usableSizeImpl build pointer s = .ok (usable, s)) (nonempty : newSize ≠ 0)
    (other : newSize ≠ usable) :
    realloc build E pointer align newSize s = reallocMove build E pointer align newSize usable s := by
  rw [realloc, bind_ok sized, if_neg other, if_neg (by simp [Size.isEmpty, nonempty]),
    if_neg (by simp [moves])]

theorem Serves.moved (serves : Serves total memory session heap)
    (live : session.live handle = some (session.allocator.unit (place + headerSize)))
    {s' : AllocatorState build σ} (different : place ≠ place')
    (effect : Effect total heap heap' (some (place, size)) (some (place', newSize + headerSize))
      session.allocator s') (contents : Nat → Option UInt8) :
    Moved total session
      (session.rebind handle (some (session.allocator.unit (place' + headerSize))) contents s')
      handle (session.allocator.unit (place + headerSize)) (size - headerSize) newSize
      (session.allocator.unit (place' + headerSize)) := by
  have unit := effect.keeps.unit
  have there : heap'.Allots place' (newSize + headerSize) := (effect.allots _ _).mpr (Or.inl rfl)
  constructor
  · have sized := usableSizeImpl_ok effect.represents there
    rwa [unit, Nat.add_sub_cancel] at sized
  · intro i inside
    refine effect.carried _ rfl _ rfl i ?_
    simp only [headerSize] at *
    omega
  · obtain ⟨written, log, inside⟩ := effect.writes
    refine ⟨written, log, fun range member => ?_⟩
    obtain ⟨_, ⟨⟩, low, high⟩ := inside range member
    refine ⟨low, ?_⟩
    simp only [State.unit, headerSize] at *
    omega
  · intro other pointer' length different live' sized
    obtain ⟨p, n, here', -, -, rfl, usable⟩ := serves.usable live'
    cases sized.symm.trans usable
    have stays := effect.stays (serves.rest different.symm live live' here')
    have usable' := usableSize_ok effect.represents stays.allots
    rw [unit] at usable'
    exact ⟨(Function.update_of_ne different _ _).trans live', usable', stays.bytes⟩
  · exact effect.represents.wellFormed
  · exact Function.update_self _ _ _
  · intro other alive
    dsimp only [Session.rebind] at alive
    by_cases mine : other = handle
    · rw [mine, Function.update_self] at alive
      have same := Option.some.inj alive
      rw [unit_inj] at same
      omega
    · rw [Function.update_of_ne mine] at alive
      exact mine (serves.distinct other handle _ alive live)
  · intro length allocated
    -- what is allocated there now would be the new chunk, or another one that is still there
    rcases (effect.allocated serves.represents _ length).mp allocated with ⟨same, -⟩ | ⟨impossible, -⟩
    · rw [unit_inj] at same
      omega
    · exact impossible rfl

/-- A safe `realloc` that allocates takes the whole of the old payload. -/
theorem MovesSafely.outgrows (constant : ∀ e, E.totalSpace e = total)
    (moves : build.reallocInplace = false) (represents : Represents total session.allocator heap)
    (here : heap.Allots place size)
    (live : session.live handle = some (session.allocator.unit (place + headerSize)))
    (nonempty : newSize ≠ 0) (other : newSize ≠ size - headerSize)
    (safe : MovesSafely E total session handle (session.allocator.unit (place + headerSize)) align
      (size - headerSize) newSize) :
    size - headerSize < newSize ∨ DeclinesSize E total session.allocator align newSize := by
  obtain ⟨outcome, session', ran, safe⟩ := safe
  by_contra neither
  obtain ⟨less, succeeds⟩ := not_or.mp neither
  obtain ⟨result, s₁, run, declined⟩ := alloc_declines constant represents align newSize
  obtain ⟨q, rfl⟩ := Option.ne_none_iff_exists'.mp (declined.not.mpr succeeds)
  -- The step returns the pointer of the allocation.
  simp only [step, Session.onLive, live,
    realloc_move moves (usableSizeImpl_ok represents here) nonempty other] at ran
  obtain ⟨⟨result, s'⟩, moved, ran⟩ := result_done ran
  have returned : result = some q := by
    rw [reallocMove, bind_ok run] at moved
    obtain ⟨_, _, copied, moved⟩ := bind_done moved
    obtain ⟨_, _, freed, moved⟩ := bind_done moved
    cases moved
    rfl
  subst returned
  cases ran
  -- The copy is the last payload write, so it has to lie in the new payload.
  obtain ⟨s₁', run', log⟩ := reallocMove_logs moved
  cases run.symm.trans run'
  obtain ⟨_, _, allocated, effect⟩ :=
    allocImpl_effect (E := E) constant represents false align newSize
  cases run.symm.trans allocated
  obtain ⟨_, _, -, effect, -⟩ := effect
  obtain ⟨before, earlier, -⟩ := effect.writes
  obtain ⟨written, writes, inside⟩ := (safe q rfl).writes
  dsimp only [Session.rebind] at writes
  rw [log, earlier, ← List.cons_append] at writes
  obtain rfl := List.append_cancel_right writes
  have fits := (inside _ List.mem_cons_self).2
  have granted := (represents.materialized here).2 rfl
  have within := represents.placed.within
  have small := represents.placed.small
  rw [bytes_eq (by simp only [unitLimit] at *; omega)] at fits
  omega

theorem Serves.outgrown (constant : ∀ e, E.totalSpace e = total)
    (moves : build.reallocInplace = false) (serves : Serves total memory session heap)
    (here : heap.Allots place size)
    (live : session.live handle = some (session.allocator.unit (place + headerSize)))
    (align : Nat) (larger : size - headerSize < newSize) :
    MovesSafely E total session handle (session.allocator.unit (place + headerSize)) align
      (size - headerSize) newSize := by
  have represents := serves.represents
  have nonempty : newSize ≠ 0 := by omega
  obtain ⟨result, s', moved, effect⟩ := reallocMove_effect (E := E) constant
    represents here align (show size ≤ newSize + headerSize by omega)
  rw [← realloc_move moves (usableSizeImpl_ok represents here) nonempty (by omega)] at moved
  cases result with
  | none =>
      refine ⟨.pointer none, _, step_unmoved live moved, fun q impossible => ?_⟩
      cases impossible
  | some q =>
      obtain ⟨heap', place', rfl, different, effect⟩ := effect
      refine ⟨_, _, step_moved live moved, fun q returned => ?_⟩
      cases returned
      exact serves.moved live different effect _

theorem MovesSafely.declined (constant : ∀ e, E.totalSpace e = total)
    (moves : build.reallocInplace = false) (represents : Represents total session.allocator heap)
    (here : heap.Allots place size)
    (live : session.live handle = some (session.allocator.unit (place + headerSize)))
    (nonempty : newSize ≠ 0) (other : newSize ≠ size - headerSize)
    (declines : DeclinesSize E total session.allocator align newSize) :
    MovesSafely E total session handle (session.allocator.unit (place + headerSize)) align
      (size - headerSize) newSize := by
  obtain ⟨result, s₁, run, declined⟩ := alloc_declines constant represents align newSize
  obtain rfl := declined.mpr declines
  have moved : realloc build E (session.allocator.unit (place + headerSize)) align newSize
      session.allocator = .ok (none, s₁) := by
    rw [realloc_move moves (usableSizeImpl_ok represents here) nonempty other, reallocMove, bind_ok run]
    rfl
  refine ⟨.pointer none, _, step_unmoved live moved, fun q impossible => ?_⟩
  cases impossible

/-- Without in-place resizing, `realloc` is safe exactly when it does not make the payload
smaller, or cannot. -/
theorem realloc_moves_iff (lawful : E.Lawful build.target total)
    (moves : build.reallocInplace = false)
    (reached : OutgrowingReached build E total memory session)
    (live : session.live handle = some pointer)
    (sized : usableSizeImpl build pointer session.allocator = .ok (usable, session.allocator))
    (align : Nat) (nonempty : newSize ≠ 0) (other : newSize ≠ usable) :
    MovesSafely E total session handle pointer align usable newSize ↔
      usable < newSize ∨ DeclinesSize E total session.allocator align newSize := by
  obtain ⟨heap, place, size, serves, here, rfl⟩ := (reached.sound lawful).serves live
  cases sized.symm.trans (usableSizeImpl_ok serves.represents here)
  constructor
  · exact MovesSafely.outgrows lawful.constant moves serves.represents here live nonempty other
  · rintro (larger | declines)
    · exact serves.outgrown lawful.constant moves here live align larger
    · exact MovesSafely.declined lawful.constant moves serves.represents here live nonempty other
        declines

end Moves

section Sample

def movingBuild : Build := ⟨.x86_64, false, false, false⟩

def movingStart : Session movingBuild Unit := Session.start movingBuild () fun _ => 0

theorem moving_allocated : ∃ session outcome,
    step sampleEnv (.alloc 1 2) movingStart = .ok (outcome, session) ∧
      session.live 0 = some 64 ∧
      usableSizeImpl movingBuild 64 session.allocator = .ok (2, session.allocator) ∧
      session.allocator.payloadWrites = [] ∧
      ∃ session', step sampleEnv (.realloc 0 1 1) session = .ok (.pointer (some 160), session') ∧
        session'.allocator.payloadWrites = [(160, 64)] := by
  obtain ⟨⟨outcome, session⟩, run, passed⟩ := check_ok
    (show check (fun result => result.2.live 0 == some 64 &&
        check (fun usable => usable.1 == 2) (usableSizeImpl movingBuild 64 result.2.allocator) &&
        result.2.allocator.payloadWrites == [] &&
        check (fun next => next.1 == .pointer (some 160) &&
          next.2.allocator.payloadWrites == [(160, 64)]) (step sampleEnv (.realloc 0 1 1) result.2))
      (step sampleEnv (.alloc 1 2) movingStart) = true by decide +kernel)
  simp only [Bool.and_eq_true, beq_iff_eq] at passed
  obtain ⟨⟨⟨live, sized⟩, clean⟩, resized⟩ := passed
  obtain ⟨⟨usable, s⟩, read, two⟩ := check_ok sized
  obtain ⟨⟨answer, session'⟩, again, copied⟩ := check_ok resized
  simp only [Bool.and_eq_true, beq_iff_eq] at two copied
  obtain ⟨rfl, writes⟩ := copied
  have unchanged : Maintains (fun s => s = session.allocator) (usableSizeImpl movingBuild 64) :=
    inferInstance
  rw [unchanged.keeps _ _ _ rfl read, two] at read
  exact ⟨session, outcome, run, live, read, clean, session', again, writes⟩

theorem realloc_moves_sample : ∃ session outcome,
    step sampleEnv (.alloc 1 2) movingStart = .ok (outcome, session) ∧
      (MovesSafely sampleEnv 8 session 0 64 1 2 3 ↔
        2 < 3 ∨ DeclinesSize sampleEnv 8 session.allocator 1 3) := by
  obtain ⟨session, outcome, run, live, sized, -⟩ := moving_allocated
  have reached : OutgrowingReached movingBuild sampleEnv 8 (fun _ => 0) session :=
    .step (.start ⟨(), rfl⟩) (show Permitted (.alloc 1 2) movingStart ∧ True from ⟨trivial, trivial⟩)
      run
  have lawful : sampleEnv.Lawful movingBuild.target 8 := sample_lawful
  exact ⟨session, outcome, run,
    realloc_moves_iff lawful rfl reached live sized 1 (by decide) (by decide)⟩

/-- Two units made one: the copy runs over the header behind the new payload. -/
theorem realloc_overruns : ∃ session session', Reached movingBuild sampleEnv (fun _ => 0) session ∧
    session.live 0 = some 64 ∧
      usableSizeImpl movingBuild 64 session.allocator = .ok (2, session.allocator) ∧
      step sampleEnv (.realloc 0 1 1) session = .ok (.pointer (some 160), session') ∧
      ¬ Moved 8 session session' 0 64 2 1 160 := by
  obtain ⟨session, outcome, run, live, sized, clean, session', again, writes⟩ := moving_allocated
  have reached : Reached movingBuild sampleEnv (fun _ => 0) session :=
    .step (.start ⟨(), rfl⟩) (show Permitted (.alloc 1 2) movingStart from trivial) run
  refine ⟨session, session', reached, live, sized, again, fun moved => ?_⟩
  obtain ⟨written, log, inside⟩ := moved.writes
  rw [writes, clean, List.append_nil] at log
  obtain rfl := log
  exact absurd (inside (160, 64) List.mem_cons_self).2 (by decide)

end Sample

end Picoalloc
