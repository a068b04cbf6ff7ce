import Picoalloc.Calls
import Picoalloc.Stores

/-!
A process against a heap of objects. An object is a range of bytes at an address, and the
calls say what becomes of it in the words of their documentation: they leave open where an
object lies, how much longer than asked for it is and whether there is memory for it.
-/

namespace Picoalloc
open CheckedMachine ByteMemory Libc

variable {build : Build} {σ : Type} {target : Target}

@[ext] structure Objects where
  object : Nat → Option (List UInt8)
  align : Nat → Nat
  errno : Nat
  nonnull : object Pointer.null = none
  apart : ∀ address other bytes bytes', address ≠ other → object address = some bytes →
    object other = some bytes' → BlocksApart (address, bytes) (other, bytes')

def Objects.empty : Objects where
  object _ := none
  align _ := 0
  errno := 0
  nonnull := rfl
  apart _ _ _ _ _ impossible := nomatch impossible

def dropped (object : Nat → Option (List UInt8)) (old : Option Nat) : Nat → Option (List UInt8) :=
  match old with
  | none => object
  | some address => Function.update object address none

/-- What a call may do to the objects. -/
inductive Objects.Step (target : Target) (zeroes : Prop) :
    Call target → Reply → Objects → Objects → Prop where
  | granted {call : Call target} {request : Request} {pointer : Nat} {bytes : List UInt8}
      {before after : Objects} (asked : call.request = some request) (valid : ¬ call.Invalid)
      (fresh : before.object pointer = none ∨ request.old = some pointer)
      (aligned : request.align ∣ pointer) (sized : request.bytes ≤ bytes.length)
      (zero : request.zeroed = true → zeroes → ∀ byte ∈ bytes, byte = 0)
      (copied : ∀ old content, request.old = some old → before.object old = some content →
        bytes.take (min content.length request.bytes) =
          content.take (min content.length request.bytes))
      (object : after.object =
        Function.update (dropped before.object request.old) pointer (some bytes))
      (align : after.align = Function.update before.align pointer
        (if request.old = some pointer then before.align pointer else request.align))
      (errno : after.errno = before.errno) :
      Step target zeroes call (call.grants pointer) before after
  | refused {call : Call target} {request : Request} {error : Nat} {before after : Objects}
      (asked : call.request = some request) (reason : error = EINVAL ∧ call.Invalid ∨
        error = ENOMEM ∧ ¬ call.Invalid)
      (object : after.object = before.object) (align : after.align = before.align)
      (errno : after.errno = call.errno error before.errno) :
      Step target zeroes call (call.refuses error) before after
  | released {call : Call target} {address : Nat} {content : List UInt8} {before after : Objects}
      (freed : call.releases = some address) (held : before.object address = some content)
      (object : after.object = Function.update before.object address none)
      (align : after.align = before.align) (errno : after.errno = before.errno) :
      Step target zeroes call call.freed before after
  | nothing {call : Call target} {objects : Objects}
      (null : call = .free Pointer.null ∨ ∃ layout, call = .globalDealloc Pointer.null layout) :
      Step target zeroes call .done objects objects
  | sized {address : Nat} {content : List UInt8} {objects : Objects}
      (held : objects.object address = some content) :
      Step target zeroes (.mallocUsableSize address) (.size content.length) objects objects
  | sizedNull {objects : Objects} :
      Step target zeroes (.mallocUsableSize Pointer.null) (.size 0) objects objects
  | read {address index : Nat} {content : List UInt8} {byte : UInt8} {objects : Objects}
      (held : objects.object address = some content) (here : content[index]? = some byte) :
      Step target zeroes (.read (address + index)) (.byte byte) objects objects
  | wrote {address index : Nat} {content : List UInt8} {byte : UInt8} {before after : Objects}
      (held : before.object address = some content) (inside : index < content.length)
      (object : after.object = Function.update before.object address (some (content.set index byte)))
      (align : after.align = before.align) (errno : after.errno = before.errno) :
      Step target zeroes (.write (address + index) byte) .done before after

/-- What a process may do with its objects: pass null or an address of an object where it may
pass null, to `GlobalAlloc::realloc` the address of an object with the alignment that it was
obtained with and a size, and access its objects. -/
def Objects.Permitted : Call target → Objects → Prop
  | .free pointer, objects | .globalDealloc pointer _, objects | .mallocUsableSize pointer, objects
  | .realloc pointer _, objects | .reallocarray pointer _ _, objects =>
      pointer = Pointer.null ∨ objects.object pointer ≠ none
  | .globalRealloc pointer layout newSize, objects =>
      objects.object pointer ≠ none ∧ objects.align pointer = layout.align ∧ newSize ≠ 0
  | .read address, objects | .write address _, objects =>
      ∃ base content, objects.object base = some content ∧ base ≤ address ∧
        address < base + content.length
  | _, _ => True

def Indexes (object : Nat → Option (List UInt8)) (block : Nat → Option (Nat × List UInt8)) : Prop :=
  ∀ address bytes, object address = some bytes ↔ ∃ handle, block handle = some (address, bytes)

section Indexing

variable {object object' : Nat → Option (List UInt8)} {blocks blocks' : Blocks}
  {handle other address pointer : Nat} {bytes bytes' : List UInt8}

theorem Blocks.same_handle (held : blocks.block handle = some (address, bytes))
    (held' : blocks.block other = some (address, bytes')) : handle = other := by
  by_contra different
  have apart := blocks.apart handle other _ _ different held held'
  simp only [BlocksApart] at apart
  omega

theorem Indexes.away (indexes : Indexes object blocks.block)
    (indexes' : Indexes object' blocks'.block) {slot : Option (Nat × List UInt8)}
    (rebound : blocks'.block = Function.update blocks.block handle slot)
    (after : ∀ bytes, slot ≠ some (address, bytes)) :
    object' address = dropped object ((blocks.block handle).map Prod.fst) address := by
  have here : blocks'.block handle = slot := by rw [rebound, Function.update_self]
  have there : ∀ {other}, other ≠ handle → blocks'.block other = blocks.block other :=
    fun different => by rw [rebound, Function.update_of_ne different]
  refine Option.ext fun bytes => ?_
  -- After the call an address is that of a block under another handle.
  have moved : object' address = some bytes ↔
      ∃ other, other ≠ handle ∧ blocks.block other = some (address, bytes) := by
    rw [indexes' address bytes]
    constructor
    · rintro ⟨other, held⟩
      have different : other ≠ handle := by
        rintro rfl
        exact after bytes (here ▸ held)
      exact ⟨other, different, there different ▸ held⟩
    · rintro ⟨other, different, held⟩
      exact ⟨other, (there different).trans held⟩
  rw [moved]
  cases held : blocks.block handle with
  | none =>
      rw [Option.map_none, dropped, indexes address bytes]
      constructor
      · rintro ⟨other, -, held'⟩
        exact ⟨other, held'⟩
      · rintro ⟨other, held'⟩
        refine ⟨other, ?_, held'⟩
        rintro rfl
        cases held.symm.trans held'
  | some old =>
      rw [Option.map_some, dropped]
      by_cases same : address = old.1
      · subst same
        rw [Function.update_self]
        refine iff_of_false ?_ (fun impossible => nomatch impossible)
        rintro ⟨other, different, held'⟩
        exact different (blocks.same_handle held' held)
      · rw [Function.update_of_ne same, indexes address bytes]
        constructor
        · rintro ⟨other, -, held'⟩
          exact ⟨other, held'⟩
        · rintro ⟨other, held'⟩
          refine ⟨other, ?_, held'⟩
          rintro rfl
          cases held.symm.trans held'
          exact same rfl

theorem Indexes.freed (indexes : Indexes object blocks.block)
    (indexes' : Indexes object' blocks'.block)
    (rebound : blocks'.block = Function.update blocks.block handle none) :
    object' = dropped object ((blocks.block handle).map Prod.fst) :=
  funext fun _ => indexes.away indexes' rebound fun _ impossible => nomatch impossible

theorem Indexes.bound (indexes : Indexes object blocks.block)
    (indexes' : Indexes object' blocks'.block)
    (rebound : blocks'.block = Function.update blocks.block handle (some (pointer, bytes))) :
    object' = Function.update (dropped object ((blocks.block handle).map Prod.fst)) pointer
      (some bytes) := by
  funext address
  by_cases same : address = pointer
  · subst same
    rw [Function.update_self]
    exact (indexes' _ _).mpr ⟨handle, by rw [rebound, Function.update_self]⟩
  · rw [Function.update_of_ne same]
    refine indexes.away indexes' rebound ?_
    rintro _ ⟨⟩
    exact same rfl

theorem Indexes.fresh (indexes : Indexes object blocks.block)
    (rebound : blocks'.block = Function.update blocks.block handle (some (pointer, bytes))) :
    object pointer = none ∨ (blocks.block handle).map Prod.fst = some pointer := by
  refine or_iff_not_imp_left.mpr fun present => ?_
  obtain ⟨content, held⟩ := Option.ne_none_iff_exists'.mp present
  obtain ⟨other, there⟩ := (indexes _ _).mp held
  obtain rfl : other = handle := by
    by_contra different
    have there' : blocks'.block other = some (pointer, content) := by
      rw [rebound, Function.update_of_ne different, there]
    have here : blocks'.block handle = some (pointer, bytes) := by
      rw [rebound, Function.update_self]
    exact different (blocks'.same_handle there' here)
  rw [there]
  rfl

end Indexing

section Objects

open Classical in
noncomputable def Blocks.object (blocks : Blocks) (address : Nat) : Option (List UInt8) :=
  if held : ∃ bytes handle, blocks.block handle = some (address, bytes) then some held.choose else none

theorem Blocks.indexes (blocks : Blocks) : Indexes blocks.object blocks.block := by
  intro address bytes
  rw [Blocks.object]
  split
  · next held =>
    obtain ⟨handle, there⟩ := held.choose_spec
    constructor
    · rintro ⟨⟩
      exact ⟨handle, there⟩
    · rintro ⟨other, here⟩
      obtain rfl := blocks.same_handle there here
      rw [there] at here
      cases here
      rfl
  · next none =>
    refine iff_of_false (fun impossible => nomatch impossible) ?_
    rintro ⟨handle, held⟩
    exact none ⟨bytes, handle, held⟩

noncomputable def Sound.objects {total : Nat} {memory : Memory} {session : Session build σ}
    (sound : Sound total memory session) (align : Nat → Nat) (errno : Nat) : Objects where
  object := sound.blocks.object
  align
  errno
  nonnull := by
    refine Option.eq_none_iff_forall_ne_some.mpr fun bytes present => ?_
    obtain ⟨handle, held⟩ := (sound.blocks.indexes _ _).mp present
    obtain ⟨_, -, -, -, nonnull, -⟩ := sound.payload (sound.live_of_block held).1
    exact nonnull rfl
  apart address other bytes bytes' different held held' := by
    obtain ⟨handle, here⟩ := (sound.blocks.indexes _ _).mp held
    obtain ⟨handle', there⟩ := (sound.blocks.indexes _ _).mp held'
    refine sound.blocks.apart handle handle' _ _ ?_ here there
    rintro rfl
    rw [here] at there
    cases there
    exact different rfl

end Objects

/-- A process over a session whose blocks are the objects, obtained with the alignments that
the session has kept. -/
structure Serving (E : Env σ) (memory : Memory) (session : Session build σ)
    (aligns : Nat → Option Nat) (process : Process build σ) (objects : Objects) : Prop where
  reached : TrackedReached build E memory (session, aligns)
  allocator : process.globalAllocator = session.allocator
  errno : objects.errno = process.errno
  indexes : Indexes objects.object session.block
  aligned : ∀ handle address bytes, session.block handle = some (address, bytes) →
    aligns handle = Size.fromBytesUsize build.target (objects.align address)

def Backs (E : Env σ) (memory : Memory) (process : Process build σ) (objects : Objects) : Prop :=
  ∃ session aligns, Serving E memory session aligns process objects

section Serving

variable {E : Env σ} {total : Nat} {memory : Memory} {session session' : Session build σ}
  {aligns aligns' : Nat → Option Nat} {process : Process build σ} {objects : Objects}
  {handle pointer : Nat} {bytes : List UInt8}

theorem Serving.bound (serving : Serving E memory session aligns process objects)
    (sound : Sound total memory session) (sound' : Sound total memory session')
    (reached' : TrackedReached build E memory (session', aligns'))
    (rebound : session'.block = Function.update session.block handle (some (pointer, bytes)))
    (others : ∀ other, other ≠ handle → aligns' other = aligns other) {align : Nat}
    (obtained : aligns' handle = Size.fromBytesUsize build.target align) (errno : Nat) :
    ∃ after : Objects, after.object =
        Function.update (dropped objects.object ((session.block handle).map Prod.fst)) pointer
          (some bytes) ∧
      after.align = Function.update objects.align pointer align ∧ after.errno = errno ∧
      Serving E memory session' aligns' ⟨session'.allocator, errno⟩ after := by
  have here : session'.block handle = some (pointer, bytes) := by
    rw [rebound, Function.update_self]
  refine ⟨sound'.objects (Function.update objects.align pointer align) errno, ?_, rfl, rfl, reached',
    rfl, rfl, sound'.blocks.indexes, fun other address content held => ?_⟩
  · have indexes : Indexes objects.object sound.blocks.block := serving.indexes
    exact indexes.bound sound'.blocks.indexes rebound
  · change aligns' other =
      Size.fromBytesUsize build.target (Function.update objects.align pointer align address)
    by_cases same : other = handle
    · subst same
      cases here.symm.trans held
      rw [Function.update_self]
      exact obtained
    · have elsewhere : address ≠ pointer := by
        rintro rfl
        exact same (sound'.blocks.same_handle held here)
      rw [rebound, Function.update_of_ne same] at held
      rw [others other same, Function.update_of_ne elsewhere]
      exact serving.aligned other address content held

theorem Serving.freed (serving : Serving E memory session aligns process objects)
    (sound : Sound total memory session) (sound' : Sound total memory session')
    (reached' : TrackedReached build E memory (session', aligns))
    (rebound : session'.block = Function.update session.block handle none) (errno : Nat) :
    ∃ after : Objects, after.object = dropped objects.object ((session.block handle).map Prod.fst) ∧
      after.align = objects.align ∧ after.errno = errno ∧
      Serving E memory session' aligns ⟨session'.allocator, errno⟩ after := by
  refine ⟨sound'.objects objects.align errno, ?_, rfl, rfl, reached', rfl, rfl,
    sound'.blocks.indexes, fun other address content held => ?_⟩
  · have indexes : Indexes objects.object sound.blocks.block := serving.indexes
    exact indexes.freed sound'.blocks.indexes rebound
  · by_cases same : other = handle
    · subst same
      rw [rebound, Function.update_self] at held
      cases held
    · rw [rebound, Function.update_of_ne same] at held
      exact serving.aligned other address content held

theorem Serving.kept (serving : Serving E memory session aligns process objects)
    (reached' : TrackedReached build E memory (session', aligns'))
    (same : session'.block = session.block)
    (aligned : ∀ handle address bytes, session.block handle = some (address, bytes) →
      aligns' handle = aligns handle) (errno : Nat) :
    ∃ after : Objects, after.object = objects.object ∧ after.align = objects.align ∧
      after.errno = errno ∧ Serving E memory session' aligns' ⟨session'.allocator, errno⟩ after := by
  refine ⟨{ objects with errno }, rfl, rfl, rfl, reached', rfl, rfl, same ▸ serving.indexes,
    fun other address content held => ?_⟩
  rw [same] at held
  exact (aligned other address content held).trans (serving.aligned other address content held)

structure Granted (zeroes : Prop) (request : Request) (pointer : Nat) (before after : Objects)
    (bytes : List UInt8) : Prop where
  fresh : before.object pointer = none ∨ request.old = some pointer
  aligned : request.align ∣ pointer
  sized : request.bytes ≤ bytes.length
  zero : request.zeroed = true → zeroes → ∀ byte ∈ bytes, byte = 0
  copied : ∀ old content, request.old = some old → before.object old = some content →
    bytes.take (min content.length request.bytes) = content.take (min content.length request.bytes)
  object : after.object = Function.update (dropped before.object request.old) pointer (some bytes)
  align : after.align = Function.update before.align pointer
    (if request.old = some pointer then before.align pointer else request.align)

variable {zeroes : Prop} {request : Request} {op : Op}

theorem Serving.created {isCalloc : Bool} {align size : Nat}
    (serving : Serving E memory session aligns process objects)
    (sound : Sound total memory session) (sound' : Sound total memory session')
    (reached' : TrackedReached build E memory
      (session', track (Op.allocation isCalloc align size) session session' aligns))
    (stepped : Blocks.Step zeroes (Op.allocation isCalloc align size) (.pointer (some pointer))
      sound.blocks sound'.blocks)
    (old : request.old = none) (covers : request.bytes ≤ 32 * size)
    (zeroed : request.zeroed = true → isCalloc = true)
    (units : Size.fromBytesUsize build.target request.align = some align)
    (divides : request.align ∣ pointer) (errno : Nat) :
    ∃ bytes after, Granted zeroes request pointer objects after bytes ∧ after.errno = errno ∧
      Backs E memory ⟨session'.allocator, errno⟩ after := by
  rcases stepped.allocation_inv with ⟨impossible, -⟩ | ⟨_, bytes, same, -, length, zero, rebound⟩
  · cases impossible
  cases same
  have rebound : session'.block = Function.update session.block session.calls (some (pointer, bytes)) :=
    rebound
  have unused : session.block session.calls = none := by
    by_contra present
    exact absurd (sound.blocks.numbered session.calls present) (Nat.lt_irrefl _)
  have others : ∀ other, other ≠ session.calls →
      track (Op.allocation isCalloc align size) session session' aligns other = aligns other := by
    intro other different
    cases isCalloc <;> exact Function.update_of_ne different _ _
  have obtained : track (Op.allocation isCalloc align size) session session' aligns session.calls =
      Size.fromBytesUsize build.target request.align := by
    rw [units]
    cases isCalloc <;> exact Function.update_self _ _ _
  obtain ⟨after, object, aligned, errno_eq, serving'⟩ :=
    serving.bound sound sound' reached' rebound others obtained errno
  have indexes : Indexes objects.object sound.blocks.block := serving.indexes
  have bound : sound'.blocks.block =
      Function.update sound.blocks.block session.calls (some (pointer, bytes)) := rebound
  -- The new handle had no block, so whatever is at the address is new.
  have fresh : objects.object pointer = none := by
    refine (indexes.fresh bound).resolve_right fun impossible => ?_
    cases (congrArg (Option.map Prod.fst) unused).symm.trans impossible
  refine ⟨bytes, after, ⟨Or.inl fresh, divides, by omega,
    fun wanted given => zero (zeroed wanted) given, ?_, ?_, ?_⟩, errno_eq, _, _, serving'⟩
  · intro _ _ impossible
    cases old.symm.trans impossible
  · rw [object, unused, old]
    rfl
  · rw [aligned, old, if_neg (fun impossible => nomatch impossible)]

theorem Serving.resized {old align size : Nat}
    (serving : Serving E memory session aligns process objects)
    (sound : Sound total memory session) (sound' : Sound total memory session')
    (reached' : TrackedReached build E memory
      (session', track (.realloc handle align size) session session' aligns))
    (stepped : Blocks.Step zeroes (.realloc handle align size) (.pointer (some pointer))
      sound.blocks sound'.blocks)
    (live : session.live handle = some old) (given : request.old = some old)
    (zeroed : request.zeroed = false) (covers : request.bytes ≤ 32 * size) (nonempty : size ≠ 0)
    (units : Size.fromBytesUsize build.target request.align = some align)
    (divides : request.align ∣ pointer) (errno : Nat) :
    ∃ bytes after, Granted zeroes request pointer objects after bytes ∧ after.errno = errno ∧
      Backs E memory ⟨session'.allocator, errno⟩ after := by
  rcases stepped.realloc_inv nonempty with
    ⟨impossible, -⟩ | ⟨place, _, content, bytes, same, held, length, copied, rebound⟩
  · cases impossible
  cases same
  have held : session.block handle = some (place, content) := held
  have rebound : session'.block = Function.update session.block handle (some (pointer, bytes)) :=
    rebound
  obtain rfl : old = place :=
    Option.some.inj (live.symm.trans (sound.live_of_block held).1)
  have live' : session'.live handle = some pointer :=
    (sound'.live_of_block (by rw [rebound, Function.update_self])).1
  have others : ∀ other, other ≠ handle →
      track (.realloc handle align size) session session' aligns other = aligns other := by
    intro other different
    rw [track]
    split
    · rfl
    · exact Function.update_of_ne different _ _
  -- An object that stays keeps the alignment it was obtained with.
  have obtained : track (.realloc handle align size) session session' aligns handle =
      Size.fromBytesUsize build.target
        (if request.old = some pointer then objects.align pointer else request.align) := by
    rw [track, live', live, given]
    by_cases stays : pointer = old
    · subst stays
      rw [if_pos rfl, if_pos rfl]
      exact serving.aligned handle pointer content held
    · rw [if_neg (by simpa using stays), if_neg (by simpa using Ne.symm stays), units]
      exact Function.update_self _ _ _
  obtain ⟨after, object, aligned, errno_eq, serving'⟩ :=
    serving.bound sound sound' reached' rebound others obtained errno
  have indexes : Indexes objects.object sound.blocks.block := serving.indexes
  have bound : sound'.blocks.block =
      Function.update sound.blocks.block handle (some (pointer, bytes)) := rebound
  have fresh : objects.object pointer = none ∨ request.old = some pointer := by
    refine (indexes.fresh bound).imp_right fun same => ?_
    have here : (session.block handle).map Prod.fst = some pointer := same
    rw [held] at here
    exact given.trans here
  refine ⟨bytes, after, ⟨fresh, divides, by omega, fun wanted => ?_, ?_, ?_, aligned⟩,
    errno_eq, _, _, serving'⟩
  · rw [zeroed] at wanted
    cases wanted
  · intro other content' same present
    obtain rfl := Option.some.inj (given.symm.trans same)
    -- one block only begins at the old address, and its bytes are the ones copied
    obtain ⟨handle', held'⟩ := (serving.indexes _ _).mp present
    obtain rfl := sound.blocks.same_handle held held'
    cases held.symm.trans held'
    have inside : request.bytes ≤ bytes.length := by omega
    have prefixes := congrArg (List.take request.bytes) copied
    rw [List.take_take, List.take_take, Nat.min_eq_left inside] at prefixes
    rw [Nat.min_comm, prefixes, List.take_eq_take_iff]
    omega
  · rw [object, held, given]
    rfl

theorem Serving.granted (lawful : E.Lawful build.target total) (inplace : build.reallocInplace = true)
    (granting : zeroes → ∀ session : Session build σ, Reached build E memory session →
      GrantsZeroed memory session.allocator.trace)
    (serving : Serving E memory session aligns process objects)
    (meets : Meets session aligns request op)
    (ran : step E op session = .ok (.pointer (some pointer), session')) (errno : Nat) :
    ∃ bytes after, Granted zeroes request pointer objects after bytes ∧ after.errno = errno ∧
      Backs E memory ⟨session'.allocator, errno⟩ after := by
  have reached := serving.reached.reached
  have permitted := meets.permitted
  have reached' := serving.reached.next permitted ran
  obtain ⟨sound, -⟩ := serving.reached.sound lawful inplace
  obtain ⟨sound', -⟩ := reached'.sound lawful inplace
  have divides : request.align ∣ pointer :=
    (meets.fulfils lawful inplace serving.reached ran).aligned.1
  have stepped : Blocks.Step zeroes op (.pointer (some pointer)) sound.blocks sound'.blocks :=
    reached.blocks_step lawful inplace granting permitted ran rfl rfl rfl rfl
  cases meets with
  | allocation old covers zeroed units power =>
      exact serving.created sound sound' reached' stepped old covers zeroed units divides errno
  | reallocation live given zeroed covers nonempty units kept =>
      exact serving.resized sound sound' reached' stepped live given zeroed covers nonempty units
        divides errno

theorem Serving.refused (lawful : E.Lawful build.target total) (inplace : build.reallocInplace = true)
    (serving : Serving E memory session aligns process objects)
    (meets : Meets session aligns request op)
    (ran : step E op session = .ok (.pointer none, session')) (errno : Nat) :
    ∃ after : Objects, after.object = objects.object ∧ after.align = objects.align ∧
      after.errno = errno ∧ Backs E memory ⟨session'.allocator, errno⟩ after := by
  have reached := serving.reached.reached
  have permitted := meets.permitted
  have reached' := serving.reached.next permitted ran
  obtain ⟨sound, -⟩ := serving.reached.sound lawful inplace
  obtain ⟨sound', -⟩ := reached'.sound lawful inplace
  have stepped : Blocks.Step False op (.pointer none) sound.blocks sound'.blocks :=
    reached.blocks_step lawful inplace False.elim permitted ran rfl rfl rfl rfl
  suffices ∃ same : session'.block = session.block, ∀ handle address bytes,
      session.block handle = some (address, bytes) →
      track op session session' aligns handle = aligns handle by
    obtain ⟨same, aligned⟩ := this
    obtain ⟨after, object, align, error, serving'⟩ := serving.kept reached' same aligned errno
    exact ⟨after, object, align, error, _, _, serving'⟩
  cases meets with
  | @allocation isCalloc align size =>
      rcases stepped.allocation_inv with ⟨-, same⟩ | ⟨_, _, impossible, -⟩
      · refine ⟨same, fun handle address bytes held => ?_⟩
        have earlier : handle < session.calls := sound.blocks.numbered handle (by
          intro dead
          cases dead.symm.trans held)
        cases isCalloc <;> exact Function.update_of_ne earlier.ne _ _
      · cases impossible
  | @reallocation handle old align size live given zeroed covers nonempty =>
      rcases stepped.realloc_inv nonempty with ⟨-, same⟩ | ⟨_, _, _, _, impossible, -⟩
      · refine ⟨same, fun other address bytes held => ?_⟩
        rw [track]
        split
        · rfl
        · next moved =>
          refine Function.update_of_ne ?_ _ _
          rintro rfl
          have held' : session'.block other = some (address, bytes) := (congrFun same other).trans held
          exact moved ((sound'.live_of_block held').1.trans (sound.live_of_block held).1.symm)
      · cases impossible

theorem Serving.released (lawful : E.Lawful build.target total) (inplace : build.reallocInplace = true)
    (serving : Serving E memory session aligns process objects)
    (held : objects.object pointer = some bytes) (errno : Nat) :
    ∃ s' after, Picoalloc.free build E pointer session.allocator = .ok ((), s') ∧
      after.object = Function.update objects.object pointer none ∧ after.align = objects.align ∧
      after.errno = errno ∧ Backs E memory ⟨s', errno⟩ after := by
  obtain ⟨sound, -⟩ := serving.reached.sound lawful inplace
  obtain ⟨handle, there⟩ := (serving.indexes _ _).mp held
  have live : session.live handle = some pointer := (sound.live_of_block there).1
  have permitted : Permitted (.free handle) session := by
    rw [Permitted, live]
    exact Option.some_ne_none _
  obtain ⟨outcome, session', ran, sound'⟩ :=
    step_sound lawful sound permitted (copies_inplace inplace _ session)
  have stepped : Blocks.Step False (.free handle) outcome sound.blocks sound'.blocks :=
    serving.reached.reached.blocks_step lawful inplace False.elim permitted ran rfl rfl rfl rfl
  have reached' := serving.reached.next permitted ran
  obtain ⟨after, object, align, error, serving'⟩ :=
    serving.freed sound sound' reached' stepped.free_inv errno
  rw [there] at object
  have done := ran
  simp only [step, Session.onLive, live] at done
  obtain ⟨⟨_, s'⟩, run, done⟩ := result_done done
  cases done
  exact ⟨s', after, run, object, align, error, _, _, serving'⟩

end Serving

section Process

variable {E : Env σ} {total : Nat} {memory : Memory} {session : Session build σ}
  {aligns : Nat → Option Nat} {process : Process build σ} {objects : Objects} {request : Request}
  {zeroes : Prop} {plan : Plan}

def Objects.Allows (objects : Objects) (request : Request) : Prop :=
  isPowerOfTwo request.align = true ∧ ∀ pointer, request.old = some pointer →
    objects.object pointer ≠ none ∧ request.zeroed = false ∧ request.bytes ≠ 0 ∧
      (request.align = 1 ∨ objects.align pointer = request.align)

theorem pointerBytes_power (target : Target) : isPowerOfTwo (pointerBytes target) = true := by
  cases target <;> decide

theorem Objects.reallocation_allows {pointer size : Nat}
    (permitted : pointer = Pointer.null ∨ objects.object pointer ≠ none)
    (asked : Call.request.reallocation target pointer size = some request) :
    objects.Allows request := by
  rw [Call.request.reallocation] at asked
  split at asked
  · cases asked
    exact ⟨pointerBytes_power target, fun _ impossible => by cases impossible⟩
  · next nonnull =>
    split at asked
    · cases asked
    · next some_ =>
      have power : isPowerOfTwo 1 = true := by decide
      cases asked
      refine ⟨power, fun _ same => ?_⟩
      cases same
      exact ⟨permitted.resolve_left nonnull, rfl, some_, Or.inl rfl⟩

theorem Objects.Permitted.allows {c : Call target} (permitted : Objects.Permitted c objects)
    (asked : c.request = some request) (valid : ¬ c.Invalid) : objects.Allows request := by
  cases c with
  | malloc size =>
      cases asked
      exact ⟨pointerBytes_power target, fun _ impossible => nomatch impossible⟩
  | calloc count size =>
      have power : isPowerOfTwo 16 = true := by decide
      cases asked
      exact ⟨power, fun _ impossible => nomatch impossible⟩
  | alignedAlloc align size | memalign align size | posixMemalign _ align size =>
      cases asked
      have power : isPowerOfTwo align = true := by simpa using (not_or.mp valid).1
      exact ⟨power, fun _ impossible => nomatch impossible⟩
  | realloc pointer size => exact Objects.reallocation_allows permitted asked
  | reallocarray pointer count size => exact Objects.reallocation_allows permitted asked
  | globalAlloc layout | globalAllocZeroed layout =>
      cases asked
      exact ⟨layout.power, fun _ impossible => nomatch impossible⟩
  | globalRealloc pointer layout newSize =>
      cases asked
      obtain ⟨held, aligned, some_⟩ := permitted
      refine ⟨layout.power, fun _ same => ?_⟩
      cases same
      exact ⟨held, rfl, some_, Or.inr aligned⟩
  | free | globalDealloc | mallocUsableSize | read | write => cases asked

theorem Objects.Permitted.releases {c : Call target} {address : Nat}
    (permitted : Objects.Permitted c objects) (freed : c.releases = some address) :
    objects.object address ≠ none := by
  have held : ∀ {pointer}, pointer = Pointer.null ∨ objects.object pointer ≠ none →
      nonNull pointer = some address → objects.object address ≠ none := by
    intro pointer may same
    rcases may with rfl | held
    · cases same
    · rw [nonNull] at same
      split at same
      · cases same
      · cases same
        exact held
  cases c with
  | free | globalDealloc => exact held permitted freed
  | realloc pointer size =>
      simp only [Call.releases] at freed
      split at freed
      · exact held permitted freed
      · cases freed
  | reallocarray pointer count size =>
      simp only [Call.releases] at freed
      split at freed
      · exact held permitted freed
      · cases freed
  | _ => cases freed

theorem Serving.asks (lawful : E.Lawful build.target total) (inplace : build.reallocInplace = true)
    (serving : Serving E memory session aligns process objects) (allows : objects.Allows request)
    (c : Call build.target) :
    request.plan build.target = .reject ENOMEM ∨ ∃ op result session',
      Meets session aligns request op ∧ step E op session = .ok (.pointer result, session') ∧
      (request.plan build.target).run build E c process =
        c.answer build result ⟨session'.allocator, process.errno⟩ := by
  obtain ⟨allocator, errno⟩ := process
  obtain rfl : allocator = session.allocator := serving.allocator
  obtain ⟨sound, -⟩ := serving.reached.sound lawful inplace
  rw [Request.plan]
  cases admitted : Size.fromBytesUsize build.target request.bytes with
  | none => exact Or.inl rfl
  | some size =>
      cases units : Size.fromBytesUsize build.target request.align with
      | none => exact Or.inl rfl
      | some align =>
          have covers := (fromBytesUsize_eq admitted).1
          refine Or.inr ?_
          cases old : request.old with
          | none =>
              obtain ⟨result, session', run, ran⟩ :=
                sound.allocates lawful request.zeroed align size
              exact ⟨_, result, session', .allocation old covers id units allows.1, ran,
                bind_ok (locked_ok run errno)⟩
          | some pointer =>
              obtain ⟨held, zeroed, nonempty, aligned⟩ := allows.2 pointer old
              obtain ⟨bytes, present⟩ := Option.ne_none_iff_exists'.mp held
              obtain ⟨handle, there⟩ := (serving.indexes _ _).mp present
              have live : session.live handle = some pointer := (sound.live_of_block there).1
              have some_ : size ≠ 0 := by omega
              obtain ⟨result, session', run, ran⟩ :=
                sound.reallocates lawful inplace live align some_
              refine ⟨_, result, session', .reallocation live old zeroed covers some_ units ?_, ran,
                bind_ok (locked_ok run errno)⟩
              refine aligned.imp id fun same => ⟨allows.1, ?_⟩
              rw [serving.aligned handle pointer bytes there, same, units]

theorem Serving.plan_step (lawful : E.Lawful build.target total)
    (inplace : build.reallocInplace = true)
    (granting : zeroes → ∀ session : Session build σ, Reached build E memory session →
      GrantsZeroed memory session.allocator.trace)
    (serving : Serving E memory session aligns process objects) {c : Call build.target}
    (permitted : Objects.Permitted c objects) (planned : c.plan = some plan) :
    ∃ reply process' after, plan.run build E c process = .ok (reply, process') ∧
      Objects.Step build.target zeroes c reply objects after ∧ Backs E memory process' after := by
  cases asked : c.request with
  | none =>
      rw [Call.plan, asked] at planned
      obtain ⟨pointer, freed, rfl⟩ := Option.map_eq_some_iff.mp planned
      obtain ⟨content, held⟩ := Option.ne_none_iff_exists'.mp (permitted.releases freed)
      obtain ⟨s', after, run, object, align, errno, backs⟩ :=
        serving.released lawful inplace held process.errno
      rw [← serving.allocator] at run
      exact ⟨_, _, after, bind_ok (locked_ok run process.errno),
        .released freed held object align (errno.trans serving.errno.symm), backs⟩
  | some request =>
      -- A call that is rejected leaves the session as it is, and may set `errno`.
      have rejected : ∀ error, (error = EINVAL ∧ c.Invalid ∨ error = ENOMEM ∧ ¬ c.Invalid) →
          ∃ reply process' after, (Plan.reject error).run build E c process = .ok (reply, process') ∧
            Objects.Step build.target zeroes c reply objects after ∧ Backs E memory process' after := by
        intro error reason
        obtain ⟨after, object, align, errno, serving'⟩ :=
          serving.kept serving.reached rfl (fun _ _ _ _ => rfl) (c.errno error process.errno)
        rw [← serving.allocator] at serving'
        exact ⟨_, _, after, rfl, .refused asked reason object align (by rw [errno, serving.errno]),
          _, _, serving'⟩
      simp only [Call.plan, asked, Option.some.injEq] at planned
      by_cases invalid : c.Invalid
      · rw [if_pos invalid] at planned
        rw [← planned]
        exact rejected EINVAL (Or.inl ⟨rfl, invalid⟩)
      rw [if_neg invalid] at planned
      subst planned
      rcases serving.asks lawful inplace (permitted.allows asked invalid) c with
        same | ⟨op, result, session', meets, ran, run⟩
      · rw [same]
        exact rejected ENOMEM (Or.inr ⟨rfl, invalid⟩)
      rw [run]
      cases result with
      | none =>
          obtain ⟨after, object, align, errno, backs⟩ :=
            serving.refused lawful inplace meets ran (c.errno ENOMEM process.errno)
          exact ⟨_, _, after, rfl, .refused asked (Or.inr ⟨rfl, invalid⟩) object align
            (by rw [errno, serving.errno]), backs⟩
      | some pointer =>
          obtain ⟨bytes, after, granted, errno, backs⟩ :=
            serving.granted lawful inplace granting meets ran process.errno
          exact ⟨_, _, after, rfl, .granted asked invalid granted.fresh granted.aligned granted.sized
            granted.zero granted.copied granted.object granted.align
            (errno.trans serving.errno.symm), backs⟩

theorem nonNull_none {pointer : Nat} (null : nonNull pointer = none) : pointer = Pointer.null := by
  by_contra nonnull
  cases (nonNull_ne nonnull).symm.trans null

theorem Serving.accesses (lawful : E.Lawful build.target total) (inplace : build.reallocInplace = true)
    (serving : Serving E memory session aligns process objects) {address index : Nat}
    {content : List UInt8} (held : objects.object address = some content)
    (inside : index < content.length) :
    content[index]? = some (process.globalAllocator.memory (address + index)) ∧
      ∀ byte, ∃ after : Objects,
        after.object = Function.update objects.object address (some (content.set index byte)) ∧
        after.align = objects.align ∧ after.errno = objects.errno ∧ Backs E memory
          { process with globalAllocator := process.globalAllocator.poke (address + index) byte } after := by
  obtain ⟨allocator, errno⟩ := process
  obtain rfl : allocator = session.allocator := serving.allocator
  obtain ⟨sound, -⟩ := serving.reached.sound lawful inplace
  obtain ⟨handle, there⟩ := (serving.indexes _ _).mp held
  obtain ⟨live, sized, bytes⟩ := sound.live_of_block there
  have live : session.live handle = some address := live
  constructor
  · rw [List.getElem?_eq_getElem inside, Option.some.injEq]
    have there : index < (slice session.allocator.memory address content.length).length := by
      rwa [slice_length]
    calc content[index] = (slice session.allocator.memory address content.length)[index] :=
          List.getElem_of_eq bytes inside
      _ = session.allocator.memory (address + index) := slice_getElem there
  · intro byte
    have permitted : Permitted (.write handle index byte) session :=
      ⟨address, content.length, live, sized, inside⟩
    have ran : step E (.write handle index byte) session = .ok (.done,
        session.rebind handle (some address)
          (Function.update (session.written handle) index (some byte))
          (session.allocator.poke (address + index) byte)) := by
      simp only [step, Session.onLive, live]
    have reached' := serving.reached.next permitted ran
    obtain ⟨sound', -⟩ := reached'.sound lawful inplace
    have stepped : Blocks.Step False _ _ sound.blocks sound'.blocks :=
      serving.reached.reached.blocks_step lawful inplace False.elim permitted ran rfl rfl rfl rfl
    obtain ⟨_, _, held', rebound⟩ := stepped.write_inv
    cases there.symm.trans held'
    obtain ⟨after, object, align, same, serving'⟩ :=
      serving.bound sound sound' reached' rebound (fun _ _ => rfl)
        (serving.aligned handle address content there) errno
    rw [there] at object
    refine ⟨after, ?_, ?_, same.trans serving.errno.symm, _, _, serving'⟩
    · rw [object, Option.map_some, dropped, Function.update_idem]
    · rw [align, Function.update_eq_self]

/-- Every call of a process is a step of its objects. -/
theorem Serving.call (lawful : E.Lawful build.target total) (inplace : build.reallocInplace = true)
    (granting : zeroes → ∀ session : Session build σ, Reached build E memory session →
      GrantsZeroed memory session.allocator.trace)
    (serving : Serving E memory session aligns process objects) {c : Call build.target}
    (permitted : Objects.Permitted c objects) :
    ∃ reply process' after, call build E c process = .ok (reply, process') ∧
      Objects.Step build.target zeroes c reply objects after ∧ Backs E memory process' after := by
  have backs : Backs E memory process objects := ⟨_, _, serving⟩
  cases planned : c.plan with
  | some plan =>
      have nonnull : ∀ pointer layout newSize, c = .globalRealloc pointer layout newSize →
          pointer ≠ Pointer.null := by
        rintro pointer layout newSize rfl rfl
        exact permitted.1 objects.nonnull
      rw [call_plan E planned nonnull]
      exact serving.plan_step lawful inplace granting permitted planned
  -- Without a plan the allocator is not called: null is freed, or the process reads and writes.
  | none =>
      cases c with
      | free pointer =>
          obtain rfl := nonNull_none (Option.map_eq_none_iff.mp planned)
          exact ⟨.done, process, objects, rfl, .nothing (Or.inl rfl), backs⟩
      | globalDealloc pointer layout =>
          obtain rfl := nonNull_none (Option.map_eq_none_iff.mp planned)
          exact ⟨.done, process, objects, rfl, .nothing (Or.inr ⟨layout, rfl⟩), backs⟩
      | mallocUsableSize pointer =>
          by_cases null : pointer = Pointer.null
          · subst null
            exact ⟨.size 0, process, objects, rfl, .sizedNull, backs⟩
          obtain ⟨content, held⟩ := Option.ne_none_iff_exists'.mp (permitted.resolve_left null)
          obtain ⟨sound, -⟩ := serving.reached.sound lawful inplace
          obtain ⟨handle, there⟩ := (serving.indexes _ _).mp held
          obtain ⟨-, sized, -⟩ := sound.live_of_block there
          have read : mallocUsableSize build pointer process.globalAllocator =
              .ok (content.length, process.globalAllocator) := by
            rw [mallocUsableSize_eq null, serving.allocator]
            exact sized
          refine ⟨.size content.length, process, objects, ?_, .sized held, backs⟩
          simp only [Picoalloc.call, read]
          rfl
      | read address =>
          obtain ⟨base, content, held, above, below⟩ := permitted
          obtain ⟨index, rfl⟩ := Nat.exists_eq_add_of_le above
          obtain ⟨here, -⟩ :=
            serving.accesses lawful inplace held (Nat.lt_of_add_lt_add_left below)
          exact ⟨_, process, objects, rfl, .read held here, backs⟩
      | write address byte =>
          obtain ⟨base, content, held, above, below⟩ := permitted
          obtain ⟨index, rfl⟩ := Nat.exists_eq_add_of_le above
          have inside := Nat.lt_of_add_lt_add_left below
          obtain ⟨-, write⟩ := serving.accesses lawful inplace held inside
          obtain ⟨after, object, align, errno, backs'⟩ := write byte
          exact ⟨.done, _, after, rfl, .wrote held inside object align errno, backs'⟩
      | realloc pointer size => cases (reallocation_plan rfl rfl id).symm.trans planned
      | reallocarray pointer count size => cases (reallocation_plan rfl rfl id).symm.trans planned
      | _ => cases planned

theorem call_step (lawful : E.Lawful build.target total) (inplace : build.reallocInplace = true)
    (granting : zeroes → ∀ session : Session build σ, Reached build E memory session →
      GrantsZeroed memory session.allocator.trace) :
    Refines (Backs E memory : Process build σ → Objects → Prop) Objects.Permitted (call build E)
      (Objects.Step build.target zeroes) := by
  constructor
  rintro c process objects ⟨session, aligns, serving⟩ permitted
  exact serving.call lawful inplace granting permitted

theorem Backs.start (env : σ) (errno : Nat) :
    Backs E memory (⟨Allocator.new build env memory, errno⟩ : Process build σ)
      { Objects.empty with errno } := by
  refine ⟨Session.start build env memory, fun _ => none, .start ⟨env, rfl⟩, rfl, rfl, ?_, ?_⟩
  · intro address bytes
    refine iff_of_false (fun impossible => nomatch impossible) ?_
    rintro ⟨handle, held⟩
    cases (Session.block_dead rfl).symm.trans held
  · intro handle address bytes held
    cases (Session.block_dead rfl).symm.trans held

/-- A process with the allocator refines a heap of objects: whatever it calls that its objects
permit, through `malloc` and its relatives, through `GlobalAlloc` or both, every call returns,
and what it sees of its objects over the whole run is what the calls promise. -/
theorem process_refines_heap (lawful : E.Lawful build.target total)
    (inplace : build.reallocInplace = true)
    (granting : zeroes → ∀ session : Session build σ, Reached build E memory session →
      GrantsZeroed memory session.allocator.trace)
    (env : σ) (errno : Nat) (client : Client (Call build.target) Reply)
    (careful : Careful (Objects.Step build.target zeroes) Objects.Permitted client
      { Objects.empty with errno }) (steps : Nat) :
    ∃ history process objects,
      play (call build E) client steps [] ⟨Allocator.new build env memory, errno⟩ =
        .ok (history, process) ∧
      Plays (Objects.Step build.target zeroes) client history { Objects.empty with errno } objects ∧
      Backs E memory process objects :=
  (call_step lawful inplace granting).play careful (Backs.start env errno) steps

end Process

section Sample

variable {zeroes : Prop}

theorem Objects.Step.obtained {c : Call target} {request : Request} {pointer : Nat}
    {before after : Objects} (asked : c.request = some request) (new : request.old = none)
    (nonnull : pointer ≠ Pointer.null)
    (stepped : Objects.Step target zeroes c (.pointer pointer) before after) :
    before.object pointer = none ∧
      ∃ bytes, request.bytes ≤ bytes.length ∧ after.object pointer = some bytes := by
  generalize answered : Reply.pointer pointer = reply at stepped
  cases stepped with
  | @granted _ request' pointer' bytes _ _ asked' valid fresh aligned sized zero copied object =>
      cases asked.symm.trans asked'
      have same : pointer = pointer' := by
        cases c <;> cases answered
        all_goals rfl
      subst same
      refine ⟨fresh.resolve_right fun impossible => ?_, bytes, sized, ?_⟩
      · cases new.symm.trans impossible
      · rw [object, Function.update_self]
  | refused =>
      cases c <;> cases answered
      all_goals exact absurd rfl nonnull
  | released =>
      cases c <;> cases answered
      all_goals exact absurd rfl nonnull
  | nothing | sized | sizedNull | read | wrote => cases answered

theorem Objects.Step.stays {c : Call target} {reply : Reply} {address : Nat} {before after : Objects}
    (stepped : Objects.Step target zeroes c reply before after)
    (held : before.object address ≠ none) (unreleased : c.releases ≠ some address)
    (unresized : ∀ request, c.request = some request → request.old ≠ some address) :
    after.object address ≠ none := by
  cases stepped with
  | @granted _ request pointer _ _ _ asked _ _ _ _ _ _ object =>
      rw [object]
      by_cases same : address = pointer
      · rw [same, Function.update_self]
        exact Option.some_ne_none _
      · rw [Function.update_of_ne same]
        cases old : request.old with
        | none => exact held
        | some other =>
            have elsewhere : address ≠ other := by
              rintro rfl
              exact unresized request asked old
            rwa [dropped, Function.update_of_ne elsewhere]
  | refused _ _ object => rwa [object]
  | @released _ other _ _ _ freed _ object =>
      have elsewhere : address ≠ other := by
        rintro rfl
        exact unreleased freed
      rwa [object, Function.update_of_ne elsewhere]
  | nothing | sized | sizedNull | read => exact held
  | @wrote other _ _ _ _ _ _ _ object =>
      rw [object]
      by_cases same : address = other
      · rw [same, Function.update_self]
        exact Option.some_ne_none _
      · rwa [Function.update_of_ne same]

/-- A process with two objects: it writes to the first one before it gets the second one, and
frees both. -/
def sampleProcess : Client (Call target) Reply
  | [] => some (.malloc 10)
  | [(_, .pointer first)] => if first = Pointer.null then none else some (.write (first + 5) 7)
  | [(_, .pointer _), _] => some (.calloc 10 10)
  | [(_, .pointer first), _, (_, .pointer second)] =>
      if second = Pointer.null then none else some (.free first)
  | [(_, .pointer _), _, (_, .pointer second), _] => some (.free second)
  | _ => none

theorem sampleProcess_writes {c₀ : Call target} {first : Nat} {wrote : Call target × Reply}
    {before after : Objects}
    (played : Plays (Objects.Step target zeroes) sampleProcess [(c₀, .pointer first), wrote] before
      after) :
    after.object first ≠ none := by
  obtain ⟨between, begun, next, stepped⟩ := Plays.last
    (show Plays _ _ ([(c₀, .pointer first)] ++ [(wrote.1, wrote.2)]) _ _ from played)
  obtain ⟨_, -, chosen, granted⟩ := Plays.last
    (show Plays _ _ ([] ++ [(c₀, Reply.pointer first)]) _ _ from begun)
  obtain rfl : Call.malloc 10 = c₀ := Option.some.inj chosen
  rw [sampleProcess] at next
  split at next
  · cases next
  · next nonnull =>
    obtain ⟨-, bytes, -, held⟩ := granted.obtained rfl rfl nonnull
    have called : Call.write (first + 5) 7 = wrote.1 := Option.some.inj next
    rw [← called] at stepped
    exact stepped.stays (by rw [held]; exact Option.some_ne_none _) (fun impossible => by cases impossible)
      (fun _ impossible => by cases impossible)

theorem sampleProcess_holds {c₀ c₂ : Call target} {first second : Nat} {wrote : Call target × Reply}
    {before after : Objects} (nonnull : second ≠ Pointer.null)
    (played : Plays (Objects.Step target zeroes) sampleProcess
      [(c₀, .pointer first), wrote, (c₂, .pointer second)] before after) :
    after.object first ≠ none ∧ after.object second ≠ none ∧ second ≠ first := by
  obtain ⟨between, begun, chosen, stepped⟩ := Plays.last
    (show Plays _ _ ([(c₀, .pointer first), wrote] ++ [(c₂, Reply.pointer second)]) _ _ from played)
  obtain rfl : Call.calloc 10 10 = c₂ := Option.some.inj chosen
  have held := sampleProcess_writes begun
  obtain ⟨fresh, bytes, -, obtained⟩ := stepped.obtained rfl rfl nonnull
  refine ⟨stepped.stays held (fun impossible => by cases impossible) ?_, ?_, ?_⟩
  · intro request asked
    cases asked
    exact fun impossible => by cases impossible
  · rw [obtained]
    exact Option.some_ne_none _
  · rintro rfl
    exact held fresh

theorem sampleProcess_careful : Careful (Objects.Step target zeroes) Objects.Permitted sampleProcess
    { Objects.empty with errno := 0 } := by
  intro history objects c played chosen
  rw [sampleProcess.eq_def] at chosen
  split at chosen
  · cases chosen
    trivial
  · next c₀ first =>
    obtain ⟨_, -, called, stepped⟩ := Plays.last
      (show Plays _ _ ([] ++ [(c₀, Reply.pointer first)]) _ _ from played)
    obtain rfl : Call.malloc 10 = c₀ := Option.some.inj called
    split at chosen
    · cases chosen
    · next nonnull =>
      cases chosen
      obtain ⟨-, bytes, length, held⟩ := stepped.obtained rfl rfl nonnull
      have length : 10 ≤ bytes.length := length
      exact ⟨first, bytes, held, by omega, by omega⟩
  · cases chosen
    trivial
  · split at chosen
    · cases chosen
    · next nonnull =>
      cases chosen
      exact Or.inr (sampleProcess_holds nonnull played).1
  · next c₀ first wrote c₂ second freed =>
    cases chosen
    obtain ⟨between, begun, next, stepped⟩ := Plays.last
      (show Plays _ _ ([(c₀, .pointer first), wrote, (c₂, Reply.pointer second)] ++
        [(freed.1, freed.2)]) _ _ from played)
    rw [sampleProcess] at next
    split at next
    · cases next
    · next nonnull =>
      obtain ⟨-, held, different⟩ := sampleProcess_holds nonnull begun
      have called : Call.free first = freed.1 := Option.some.inj next
      rw [← called] at stepped
      refine Or.inr (stepped.stays held ?_ fun _ impossible => by cases impossible)
      rw [Call.releases, nonNull]
      split
      · exact fun impossible => by cases impossible
      · exact fun same => different (Option.some.inj same).symm
  · cases chosen

/-- That process over an array of zeros: it gets both of its objects and frees them. -/
theorem process_refines_heap_sample : ∃ history process objects,
    play (call sampleBuild sampleEnv) sampleProcess 5 []
        ⟨Allocator.new sampleBuild () fun _ => 0, 0⟩ = .ok (history, process) ∧
      history.map Prod.snd = [.pointer 64, .done, .pointer 128, .done, .done] ∧
      Plays (Objects.Step sampleBuild.target True) sampleProcess history
        { Objects.empty with errno := 0 } objects ∧
      Backs sampleEnv (fun _ => 0) process objects := by
  have zeros : True → ∀ session, Reached sampleBuild sampleEnv (fun _ => 0) session →
      GrantsZeroed (fun _ => 0) session.allocator.trace := fun _ _ _ _ _ _ _ _ => rfl
  obtain ⟨history, process, objects, ran, plays, backs⟩ :=
    process_refines_heap sample_lawful rfl zeros () 0 sampleProcess sampleProcess_careful 5
  refine ⟨history, process, objects, ran, ?_, plays, backs⟩
  obtain ⟨_, ran', replies⟩ := check_ok
    (show check (fun result =>
        result.1.map Prod.snd == [.pointer 64, .done, .pointer 128, .done, .done])
      (play (call sampleBuild sampleEnv) sampleProcess 5 []
        ⟨Allocator.new sampleBuild () fun _ => 0, 0⟩) = true by decide +kernel)
  cases ran.symm.trans ran'
  exact eq_of_beq replies

end Sample

end Picoalloc
