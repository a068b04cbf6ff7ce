import Picoalloc.Processes

/-!
The operations of the allocator for a client that knows its blocks by their addresses:
what it has at each address, whatever session led there.
-/

namespace Picoalloc
open CheckedMachine ByteMemory

variable {build : Build} {σ : Type} {E : Env σ} {total : Nat} {memory : Memory}
  {s : AllocatorState build σ} {object : Nat → Option (List UInt8)} {pointer newSize : Nat}
  {bytes : List UInt8}

/-- An allocator after some session, with the bytes that its client has at each address. -/
def Owns (E : Env σ) (memory : Memory) (s : AllocatorState build σ)
    (object : Nat → Option (List UInt8)) : Prop :=
  ∃ session : Session build σ, Reached build E memory session ∧ session.allocator = s ∧
    Indexes object session.block

def State.pokes {width : Nat} (address : Nat) : List UInt8 → State width σ → State width σ
  | [], s => s
  | byte :: rest, s => State.pokes (address + 1) rest (s.poke address byte)

def overwritten (bytes : List UInt8) (offset : Nat) : List UInt8 → List UInt8
  | [] => bytes
  | byte :: rest => overwritten (bytes.set offset byte) (offset + 1) rest

section Overwriting

variable {offset : Nat} {new : List UInt8}

theorem overwritten_tail (fits : offset + new.length = bytes.length) :
    overwritten bytes offset new = bytes.take offset ++ new := by
  induction new generalizing bytes offset with
  | nil =>
      rw [overwritten, List.append_nil, List.take_of_length_le]
      exact fits.ge
  | cons byte rest ih =>
      rw [List.length_cons] at fits
      rw [overwritten, ih (by rw [List.length_set]; omega), List.take_succ_eq_append_getElem
        (by rw [List.length_set]; omega), List.take_set_of_le (Nat.le_refl _), List.getElem_set_self,
        List.append_assoc]
      rfl

end Overwriting

section Indexing

variable {blocks blocks' : Blocks} {handle : Nat}

theorem Indexes.rebound (indexes : Indexes object blocks.block)
    (rebound : blocks'.block = Function.update blocks.block handle (some (pointer, bytes))) :
    Indexes (Function.update (dropped object ((blocks.block handle).map Prod.fst)) pointer (some bytes))
      blocks'.block :=
  indexes.bound blocks'.indexes rebound ▸ blocks'.indexes

theorem Indexes.unbound (indexes : Indexes object blocks.block)
    (unbound : blocks'.block = Function.update blocks.block handle none) :
    Indexes (dropped object ((blocks.block handle).map Prod.fst)) blocks'.block :=
  indexes.freed blocks'.indexes unbound ▸ blocks'.indexes

theorem Indexes.renewed (indexes : Indexes object blocks.block) {bytes' : List UInt8}
    (held : blocks.block handle = some (pointer, bytes))
    (rebound : blocks'.block = Function.update blocks.block handle (some (pointer, bytes'))) :
    Indexes (Function.update object pointer (some bytes')) blocks'.block := by
  have indexes' := indexes.rebound rebound
  rwa [held, Option.map_some, dropped, Function.update_idem] at indexes'

end Indexing

section Calls

variable {zeroes : Prop} {session : Session build σ} {op : Op}

/-- A permitted call of a session goes through, and is a step of its blocks. -/
theorem Reached.runs (lawful : E.Lawful build.target total) (inplace : build.reallocInplace = true)
    (granting : zeroes → ∀ session : Session build σ, Reached build E memory session →
      GrantsZeroed memory session.allocator.trace)
    (reached : Reached build E memory session) (permitted : Permitted op session) :
    ∃ outcome, ∃ session' : Session build σ, ∃ sound : Sound total memory session,
      ∃ sound' : Sound total memory session', step E op session = .ok (outcome, session') ∧
        Reached build E memory session' ∧
        Blocks.Step zeroes op outcome sound.blocks sound'.blocks := by
  have sound := reached.sound lawful inplace
  obtain ⟨outcome, session', ran, sound'⟩ :=
    step_sound lawful sound permitted (copies_inplace inplace op session)
  exact ⟨outcome, session', sound, sound', ran, .step reached permitted ran,
    reached.blocks_step lawful inplace granting permitted ran rfl rfl rfl rfl⟩

theorem Owns.start (env : σ) : Owns E memory (Allocator.new build env memory) fun _ => none := by
  refine ⟨Session.start build env memory, .start ⟨env, rfl⟩, rfl, fun address bytes => ?_⟩
  constructor
  · intro impossible
    cases impossible
  · rintro ⟨handle, held⟩
    rw [Session.block_dead rfl] at held
    cases held

variable (lawful : E.Lawful build.target total) (inplace : build.reallocInplace = true)
  (owns : Owns E memory s object)
include lawful inplace owns

theorem Owns.reads (held : object pointer = some bytes) :
    usableSize build pointer s = .ok (bytes.length, s) ∧ slice s.memory pointer bytes.length = bytes ∧
      bytes.length ≤ 32 * total := by
  obtain ⟨session, reached, rfl, indexes⟩ := owns
  obtain ⟨handle, there⟩ := (indexes _ _).mp held
  have sound := reached.sound lawful inplace
  obtain ⟨-, usable, same⟩ := sound.live_of_block there
  refine ⟨usable, same.symm, ?_⟩
  rcases sound with idle | ⟨heap, serves⟩
  · rw [idle.block handle] at there
    cases there
  · obtain ⟨place, size, here, -, -, -, rfl⟩ := serves.chunk_of_block there
    have inside : place + size ≤ session.allocator.allocatedSpace :=
      (serves.represents.materialized here).2 rfl
    have within := serves.represents.placed.within
    rw [slice_length]
    omega

theorem Owns.allocZeroed (granting : ∀ session : Session build σ, Reached build E memory session →
      GrantsZeroed memory session.allocator.trace) (align size : Nat) :
    (∃ s', Picoalloc.allocZeroed build E align size s = .ok (none, s') ∧ Owns E memory s' object) ∨
      ∃ pointer s', ∃ bytes : List UInt8,
        Picoalloc.allocZeroed build E align size s = .ok (some pointer, s') ∧
        pointer % Size.bytes align = 0 ∧ bytes.length = 32 * size ∧ (∀ byte ∈ bytes, byte = 0) ∧
        object pointer = none ∧ Owns E memory s' (Function.update object pointer (some bytes)) := by
  obtain ⟨session, reached, rfl, indexes⟩ := owns
  have permitted : Permitted (.allocZeroed align size) session := trivial
  obtain ⟨outcome, session', sound, sound', ran, reached', stepped⟩ :=
    reached.runs lawful inplace (fun _ : True => granting) permitted
  simp only [step] at ran
  obtain ⟨⟨result, s'⟩, run, done⟩ := result_done ran
  cases done
  have indexes : Indexes object sound.blocks.block := indexes
  have called : Blocks.Step True (Op.allocation true align size) (.pointer result) sound.blocks
      sound'.blocks := stepped
  rcases called.allocation_inv with ⟨rfl, same⟩ | ⟨pointer, bytes, rfl, aligned, sized, zero, rebound⟩
  · have indexes' : Indexes object sound'.blocks.block := by
      rwa [same]
    exact Or.inl ⟨s', run, _, reached', rfl, indexes'⟩
  · have idle : sound.blocks.block sound.blocks.next = none := by
      by_contra present
      exact absurd (sound.blocks.numbered _ present) (Nat.lt_irrefl _)
    have indexes' := indexes.rebound rebound
    have fresh := indexes.fresh rebound
    rw [idle] at indexes' fresh
    exact Or.inr ⟨pointer, s', bytes, run, aligned, sized, zero rfl trivial,
      fresh.resolve_right (fun impossible => by cases impossible), _, reached', rfl, indexes'⟩

theorem Owns.free (held : object pointer = some bytes) :
    ∃ s', Picoalloc.free build E pointer s = .ok ((), s') ∧
      Owns E memory s' (Function.update object pointer none) := by
  obtain ⟨session, reached, rfl, indexes⟩ := owns
  obtain ⟨handle, there⟩ := (indexes _ _).mp held
  have live := ((reached.sound lawful inplace).live_of_block there).1
  have permitted : Permitted (.free handle) session := fun dead => nomatch live.symm.trans dead
  obtain ⟨outcome, session', sound, sound', ran, reached', stepped⟩ :=
    reached.runs lawful inplace False.elim permitted
  simp only [step, Session.onLive, live] at ran
  obtain ⟨⟨_, s'⟩, run, done⟩ := result_done ran
  cases done
  have indexes : Indexes object sound.blocks.block := indexes
  have here : sound.blocks.block handle = some (pointer, bytes) := there
  have indexes' := indexes.unbound stepped.free_inv
  rw [here] at indexes'
  exact ⟨s', run, _, reached', rfl, indexes'⟩

theorem Owns.shrinkInplace (held : object pointer = some bytes) (nonempty : newSize ≠ 0)
    (small : newSize < 2 ^ sizeBits - 1) :
    ∃ s', Picoalloc.shrinkInplace build E pointer newSize s = .ok ((), s') ∧
      Owns E memory s' (Function.update object pointer (some (bytes.take (32 * newSize)))) := by
  obtain ⟨session, reached, rfl, indexes⟩ := owns
  obtain ⟨handle, there⟩ := (indexes _ _).mp held
  have live := ((reached.sound lawful inplace).live_of_block there).1
  have permitted : Permitted (.shrinkInplace handle newSize) session :=
    ⟨(fun dead => nomatch live.symm.trans dead), small⟩
  obtain ⟨outcome, session', sound, sound', ran, reached', stepped⟩ :=
    reached.runs lawful inplace False.elim permitted
  simp only [step, Session.onLive, live] at ran
  obtain ⟨⟨_, s'⟩, run, done⟩ := result_done ran
  rw [if_neg nonempty] at done
  cases done
  have indexes : Indexes object sound.blocks.block := indexes
  have here : sound.blocks.block handle = some (pointer, bytes) := there
  obtain ⟨_, _, held', rebound⟩ := stepped.shrink_inv nonempty
  cases here.symm.trans held'
  exact ⟨s', run, _, reached', rfl, indexes.renewed here rebound⟩

theorem Owns.growInplace (held : object pointer = some bytes) :
    (∃ s', Picoalloc.growInplace build E pointer newSize s = .ok (none, s') ∧
        Owns E memory s' object) ∨
      ∃ usable s', ∃ more : List UInt8,
        Picoalloc.growInplace build E pointer newSize s = .ok (some usable, s') ∧
        (bytes ++ more).length = 32 * usable ∧
        Owns E memory s' (Function.update object pointer (some (bytes ++ more))) := by
  obtain ⟨session, reached, rfl, indexes⟩ := owns
  obtain ⟨handle, there⟩ := (indexes _ _).mp held
  have live := ((reached.sound lawful inplace).live_of_block there).1
  have permitted : Permitted (.growInplace handle newSize) session :=
    fun dead => nomatch live.symm.trans dead
  obtain ⟨outcome, session', sound, sound', ran, reached', stepped⟩ :=
    reached.runs lawful inplace False.elim permitted
  simp only [step, Session.onLive, live] at ran
  obtain ⟨⟨result, s'⟩, run, done⟩ := result_done ran
  cases done
  have indexes : Indexes object sound.blocks.block := indexes
  have here : sound.blocks.block handle = some (pointer, bytes) := there
  rcases stepped.grow_inv with ⟨rfl, same⟩ | ⟨usable, _, _, more, rfl, held', sized, rebound⟩
  · have indexes' : Indexes object sound'.blocks.block := by
      rwa [same]
    exact Or.inl ⟨s', run, _, reached', rfl, indexes'⟩
  · cases here.symm.trans held'
    exact Or.inr ⟨usable, s', more, run, sized, _, reached', rfl, indexes.renewed here rebound⟩

theorem Owns.poke {index : Nat} (held : object pointer = some bytes) (inside : index < bytes.length)
    (byte : UInt8) : Owns E memory (s.poke (pointer + index) byte)
      (Function.update object pointer (some (bytes.set index byte))) := by
  obtain ⟨session, reached, rfl, indexes⟩ := owns
  obtain ⟨handle, there⟩ := (indexes _ _).mp held
  obtain ⟨live, usable, -⟩ := (reached.sound lawful inplace).live_of_block there
  have permitted : Permitted (.write handle index byte) session :=
    ⟨pointer, bytes.length, live, usable, inside⟩
  obtain ⟨outcome, session', sound, sound', ran, reached', stepped⟩ :=
    reached.runs lawful inplace False.elim permitted
  simp only [step, Session.onLive, live] at ran
  cases ran
  have indexes : Indexes object sound.blocks.block := indexes
  have here : sound.blocks.block handle = some (pointer, bytes) := there
  obtain ⟨_, _, held', rebound⟩ := stepped.write_inv
  cases here.symm.trans held'
  exact ⟨_, reached', rfl, indexes.renewed here rebound⟩

omit owns in
theorem Owns.pokes {offset : Nat} {new : List UInt8} (owns : Owns E memory s object)
    (held : object pointer = some bytes) (fits : offset + new.length ≤ bytes.length) :
    Owns E memory (s.pokes (pointer + offset) new)
      (Function.update object pointer (some (overwritten bytes offset new))) := by
  induction new generalizing s object bytes offset with
  | nil =>
      rw [overwritten, ← held, Function.update_eq_self]
      exact owns
  | cons byte rest ih =>
      rw [List.length_cons] at fits
      have poked := owns.poke lawful inplace held (show offset < bytes.length by omega) byte
      have room : offset + 1 + rest.length ≤ (bytes.set offset byte).length := by
        rw [List.length_set]
        omega
      have later := ih poked (Function.update_self _ _ _) room
      rw [Function.update_idem] at later
      exact later

end Calls

end Picoalloc
