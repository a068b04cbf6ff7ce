import Picoalloc.Foundation.Atomics
import Picoalloc.Foundation.CheckedMachine

/-!
The spin lock, shared by any number of threads whose steps interleave in any order over
an atomic flag that may be read stale. A thread that wants to make a call on the guarded
value spins on the flag, cuts the call into accesses of the value as it likes, and drops
the guard.
-/

namespace Picoalloc
open CheckedMachine Atomics

structure Mutex (Thread T : Type) where
  value : T
  flag : Atomic Thread Bool

def Mutex.new {Thread T : Type} (value : T) : Mutex Thread T where
  value := value
  flag := Atomic.new false

/-- Calls on a value, as sequences of accesses to it between which a thread keeps what it
needs in a local state. -/
structure Sections (T Call Local Output : Type) where
  enter : Call → Local
  access : Local → T → Checked ((Local ⊕ Output) × T)

/-- Where a thread is. It has the guard while it accesses the value and until it drops it. -/
inductive Phase (Call Local Output : Type) where
  | outside
  | waiting (call : Call)
  | holding (call : Call) (here : Local)
  | dropping (call : Call) (output : Output)

/-- The mutex and its threads. Beside them stand the value as the last finished call left it
and the calls finished so far, oldest first. -/
structure System (Thread T Call Local Output : Type) where
  mutex : Mutex Thread T
  phase : Thread → Phase Call Local Output
  settled : T
  finished : List (Thread × Call × Output)

inductive Move (Call : Type) where
  | call (call : Call)
  | spin
  | lock
  | access
  | drop

variable {Thread T Call Local Output : Type}

def System.start (value : T) : System Thread T Call Local Output where
  mutex := Mutex.new value
  phase _ := .outside
  settled := value
  finished := []

section Steps

variable [DecidableEq Thread]

def System.goes (thread : Thread) (phase : Phase Call Local Output)
    (system : System Thread T Call Local Output) : System Thread T Call Local Output :=
  { system with phase := Function.update system.phase thread phase }

/-- The steps of a thread: `lock` is a loop of weak exchanges, of which the last one succeeds,
`access` uses what the guard dereferences to, and `drop` clears the flag. -/
inductive System.Step (sections : Sections T Call Local Output) (thread : Thread) :
    Move Call → System Thread T Call Local Output → System Thread T Call Local Output → Prop where
  | call {system : System Thread T Call Local Output} {call : Call}
      (outside : system.phase thread = .outside) :
      Step sections thread (.call call) system (system.goes thread (.waiting call))
  | spin {system : System Thread T Call Local Output} {call : Call} {flag : Atomic Thread Bool}
      (waiting : system.phase thread = .waiting call)
      (failed : Atomic.CompareExchangeWeak .acquire .relaxed thread false true false
        system.mutex.flag flag) :
      Step sections thread .spin system { system with mutex := { system.mutex with flag } }
  | lock {system : System Thread T Call Local Output} {call : Call} {flag : Atomic Thread Bool}
      (waiting : system.phase thread = .waiting call)
      (exchanged : Atomic.CompareExchangeWeak .acquire .relaxed thread false true true
        system.mutex.flag flag) :
      Step sections thread .lock system
        ({ system with mutex := { system.mutex with flag } }.goes thread
          (.holding call (sections.enter call)))
  | access {system : System Thread T Call Local Output} {call : Call} {here next : Local} {value : T}
      (holding : system.phase thread = .holding call here)
      (accessed : sections.access here system.mutex.value = .ok (.inl next, value)) :
      Step sections thread .access system
        ({ system with mutex := ⟨value, system.mutex.flag.access thread⟩ }.goes thread
          (.holding call next))
  | finish {system : System Thread T Call Local Output} {call : Call} {here : Local}
      {output : Output} {value : T} (holding : system.phase thread = .holding call here)
      (accessed : sections.access here system.mutex.value = .ok (.inr output, value)) :
      Step sections thread .access system
        ({ system with
            mutex := ⟨value, system.mutex.flag.access thread⟩
            settled := value
            finished := system.finished ++ [(thread, call, output)] }.goes thread
          (.dropping call output))
  | drop {system : System Thread T Call Local Output} {call : Call} {output : Output}
      {flag : Atomic Thread Bool} (dropping : system.phase thread = .dropping call output)
      (stored : Atomic.Store .release thread false system.mutex.flag flag) :
      Step sections thread .drop system
        ({ system with mutex := { system.mutex with flag } }.goes thread .outside)

inductive System.Reached (sections : Sections T Call Local Output)
    (allowed : Thread → Call → System Thread T Call Local Output → Prop) (value : T) :
    System Thread T Call Local Output → Prop where
  | start : Reached sections allowed value (System.start value)
  | step {system system' : System Thread T Call Local Output} {thread : Thread} {move : Move Call}
      (reached : Reached sections allowed value system)
      (permitted : ∀ call, move = .call call → allowed thread call system)
      (stepped : System.Step sections thread move system system') :
      Reached sections allowed value system'

end Steps

def Phase.Guards : Phase Call Local Output → Prop
  | .holding _ _ | .dropping _ _ => True
  | .outside | .waiting _ => False

theorem Phase.guards_holding {phase : Phase Call Local Output} {call : Call} {here : Local}
    (holding : phase = .holding call here) : phase.Guards := holding ▸ trivial

theorem Phase.guards_dropping {phase : Phase Call Local Output} {call : Call} {output : Output}
    (dropping : phase = .dropping call output) : phase.Guards := dropping ▸ trivial

/-- The newest message of the flag says whether a thread has the guard, and all accesses are
published there or known to that thread. -/
inductive System.Newest (system : System Thread T Call Local Output) (last : Message Bool) : Prop where
  | free (clear : last.value = false) (none : ∀ thread, ¬ (system.phase thread).Guards)
      (published : system.mutex.flag.Publishes last)
  | taken (thread : Thread) (set : last.value = true)
      (only : ∀ other, (system.phase other).Guards ↔ other = thread)
      (seen : last.stamp ∈ system.mutex.flag.seen thread) (ordered : system.mutex.flag.Ordered thread)

/-- A message that clears the flag is followed by the exchange that sets it again. -/
def Chained (messages : List (Message Bool)) : Prop :=
  messages.IsChain fun older newer => older.value = false → newer.exchanged = true

structure System.Exclusive (system : System Thread T Call Local Output) : Prop where
  chained : Chained system.mutex.flag.messages
  newest : ∃ older last, system.mutex.flag.messages = older ++ [last] ∧ system.Newest last

section Flags

variable {messages older newer : List (Message Bool)} {message last : Message Bool}

/-- A message that clears the flag can only be exchanged when it is the newest one. -/
theorem Chained.exchanged (chained : Chained (older ++ [message] ++ newer))
    (clear : message.value = false) (unlinked : Atomic.Unlinked newer) : newer = [] := by
  cases newer with
  | nil => rfl
  | cons next rest =>
      rw [List.append_assoc] at chained
      have pair := (List.isChain_append.mp chained).2.1
      have follows := (List.isChain_cons_cons.mp pair).1 clear
      rw [unlinked next rfl] at follows
      cases follows

theorem Chained.snoc (chained : Chained (older ++ [last]))
    (follows : last.value = false → message.exchanged = true) :
    Chained (older ++ [last] ++ [message]) := by
  refine List.isChain_append.mpr ⟨chained, List.isChain_singleton _, ?_⟩
  intro before member after member'
  obtain rfl : last = before := by simpa using member
  obtain rfl : message = after := by simpa using member'
  exact follows

end Flags

section Exclusion

variable {system system' : System Thread T Call Local Output} {thread other : Thread}
  {phase : Phase Call Local Output} {sections : Sections T Call Local Output} {move : Move Call}

theorem System.Exclusive.keep (exclusive : system.Exclusive)
    (messages : system'.mutex.flag.messages = system.mutex.flag.messages)
    (guards : ∀ other, (system'.phase other).Guards ↔ (system.phase other).Guards)
    (seen : ∀ other stamp, stamp ∈ system.mutex.flag.seen other →
      stamp ∈ system'.mutex.flag.seen other)
    (published : ∀ message, system.mutex.flag.Publishes message → (∀ other, ¬ (system.phase other).Guards) →
      system'.mutex.flag.Publishes message)
    (ordered : ∀ other, (system.phase other).Guards → system.mutex.flag.Ordered other →
      system'.mutex.flag.Ordered other) : system'.Exclusive := by
  obtain ⟨older, last, split, newest⟩ := exclusive.newest
  refine ⟨messages ▸ exclusive.chained, older, last, messages.trans split, ?_⟩
  cases newest with
  | free clear none publishes =>
      exact .free clear (fun other guarding => none other ((guards other).mp guarding))
        (published last publishes none)
  | taken holder set only known order =>
      exact .taken holder set (fun other => (guards other).trans (only other))
        (seen holder _ known) (ordered holder ((only holder).mpr rfl) order)

/-- A message that is exchanged for a set flag is the newest one, and no thread has the
guard: the older ones that clear the flag have been exchanged before. -/
theorem System.Exclusive.cleared {older newer : List (Message Bool)} {message : Message Bool}
    (exclusive : system.Exclusive) (cut : system.mutex.flag.Cut thread (older ++ [message]) newer)
    (unlinked : Atomic.Unlinked newer) (clear : message.value = false) :
    newer = [] ∧ (∀ other, ¬ (system.phase other).Guards) ∧ system.mutex.flag.Publishes message := by
  obtain rfl := (cut.messages ▸ exclusive.chained).exchanged clear unlinked
  obtain ⟨rest, last, split, newest⟩ := exclusive.newest
  have whole : rest ++ [last] = older ++ [message] ++ [] := split.symm.trans cut.messages
  rw [List.append_nil] at whole
  obtain ⟨rfl, same⟩ := List.append_inj' whole rfl
  obtain rfl := List.singleton_inj.mp same
  cases newest with
  | free _ none publishes => exact ⟨rfl, none, publishes⟩
  | taken holder set =>
      rw [set] at clear
      cases clear

theorem System.Exclusive.only (exclusive : system.Exclusive) (guarding : (system.phase thread).Guards) :
    (∀ other, (system.phase other).Guards → other = thread) ∧ system.mutex.flag.Ordered thread := by
  obtain ⟨_, last, -, newest⟩ := exclusive.newest
  cases newest with
  | free clear none => exact absurd guarding (none thread)
  | taken holder set only known ordered =>
      obtain rfl := (only thread).mp guarding
      exact ⟨fun other guarding' => (only other).mp guarding', ordered⟩

variable [DecidableEq Thread]

theorem goes_self : (system.goes thread phase).phase thread = phase := Function.update_self _ _ _

theorem goes_other (different : other ≠ thread) :
    (system.goes thread phase).phase other = system.phase other :=
  Function.update_of_ne different _ _

theorem goes_guards (same : (system.phase thread).Guards ↔ phase.Guards) :
    ((system.goes thread phase).phase other).Guards ↔ (system.phase other).Guards := by
  by_cases here : other = thread
  · subst here
    rw [goes_self, same]
  · rw [goes_other here]

theorem System.Exclusive.lock {flag : Atomic Thread Bool} {call : Call} {here : Local}
    (exclusive : system.Exclusive)
    (exchanged : Atomic.CompareExchangeWeak .acquire .relaxed thread false true true
      system.mutex.flag flag) :
    System.Exclusive ({ system with mutex := { system.mutex with flag } }.goes thread
      (.holding call here)) := by
  cases exchanged with
  | @exchanged _ message older newer cut unlinked matched =>
      -- Only the newest message can be exchanged, and it says that nobody has the guard.
      obtain ⟨rfl, none, publishes⟩ := exclusive.cleared cut unlinked matched
      have chained : Chained (older ++ [message]) := by
        rw [← List.append_nil (older ++ [message]), ← cut.messages]
        exact exclusive.chained
      refine ⟨chained.snoc fun _ => rfl, older ++ [message], _, rfl, ?_⟩
      refine .taken thread rfl (fun other => ?_) (by simp [System.goes, Atomic.insertMessage]) ?_
      · by_cases same : other = thread
        · subst same
          simp [goes_self, Phase.Guards]
        · rw [goes_other same]
          exact iff_of_false (none other) same
      · exact publishes.acquired rfl

theorem System.Exclusive.drop {flag : Atomic Thread Bool} (exclusive : system.Exclusive)
    (guarding : (system.phase thread).Guards)
    (stored : Atomic.Store .release thread false system.mutex.flag flag) :
    System.Exclusive ({ system with mutex := { system.mutex with flag } }.goes thread .outside) := by
  obtain ⟨older', last, split, newest⟩ := exclusive.newest
  cases newest with
  | free clear none => exact absurd guarding (none thread)
  | taken holder set only known ordered =>
      obtain rfl := (only thread).mp guarding
      cases stored with
      | stored cut unlinked =>
      -- The holder has seen its own message, which is the newest, so the store comes behind it.
      obtain ⟨rfl, rfl⟩ := cut.newest split known
      refine ⟨(split ▸ exclusive.chained).snoc (by simp [set]), _, _, rfl, ?_⟩
      refine .free rfl (fun other guarding' => ?_) fun event early => ?_
      · by_cases same : other = thread
        · subst same
          rw [goes_self] at guarding'
          exact guarding'
        · rw [goes_other same] at guarding'
          exact same ((only other).mp guarding')
      · simpa [Order.releases] using ordered event early

theorem System.Exclusive.access {value settled : T} {finished : List (Thread × Call × Output)}
    (exclusive : system.Exclusive) (guarding : (system.phase thread).Guards) (guards : phase.Guards) :
    System.Exclusive ({ system with
      mutex := ⟨value, system.mutex.flag.access thread⟩, settled, finished }.goes thread phase) := by
  refine exclusive.keep rfl (fun other => goes_guards (iff_of_true guarding guards))
    (fun _ _ known => known) (fun _ _ none => absurd guarding (none thread)) fun other guards' ordered => ?_
  obtain rfl := (exclusive.only guarding).1 other guards'
  exact ordered.access

theorem System.Step.exclusive (stepped : System.Step sections thread move system system')
    (exclusive : system.Exclusive) : system'.Exclusive := by
  cases stepped with
  | call outside =>
      exact exclusive.keep rfl (fun other => goes_guards (by rw [outside]; exact Iff.rfl))
        (fun _ _ known => known) (fun _ publishes _ => publishes) fun _ _ ordered => ordered
  | spin waiting failed =>
      cases failed with
      | failed cut =>
          exact exclusive.keep rfl (fun _ => Iff.rfl) (fun _ _ => Atomic.observe_seen)
            (fun _ publishes _ => publishes) fun _ _ ordered => ordered.observe
  | lock waiting exchanged => exact exclusive.lock exchanged
  | access holding | finish holding =>
      exact exclusive.access (Phase.guards_holding holding) trivial
  | drop dropping stored => exact exclusive.drop (Phase.guards_dropping dropping) stored

variable {allowed : Thread → Call → System Thread T Call Local Output → Prop} {value : T}

omit [DecidableEq Thread] in
theorem System.Exclusive.start :
    (System.start value : System Thread T Call Local Output).Exclusive := by
  refine ⟨List.isChain_singleton _, [], _, rfl, .free rfl (fun _ guarding => guarding) ?_⟩
  exact fun event early => absurd early (Nat.not_lt_zero _)

theorem System.Reached.exclusive (reached : System.Reached sections allowed value system) :
    system.Exclusive := by
  induction reached with
  | start => exact .start
  | step _ _ stepped ih => exact stepped.exclusive ih

/-- Two threads never have the guard at once, and whatever a thread with the guard accesses,
all accesses before happened before it: the mutex excludes threads and data races from the
value. -/
theorem mutex_excludes (reached : System.Reached sections allowed value system)
    (guarding : (system.phase thread).Guards) :
    (∀ other, (system.phase other).Guards → other = thread) ∧ system.mutex.flag.Ordered thread :=
  reached.exclusive.only guarding

end Exclusion

section Serial

inductive Sections.Ran (sections : Sections T Call Local Output) : Local → T → Output → T → Prop where
  | finish {here : Local} {value value' : T} {output : Output}
      (accessed : sections.access here value = .ok (.inr output, value')) :
      Ran sections here value output value'
  | access {here next : Local} {value value₁ value' : T} {output : Output}
      (accessed : sections.access here value = .ok (.inl next, value₁))
      (later : Ran sections next value₁ output value') : Ran sections here value output value'

inductive Sections.Begun (sections : Sections T Call Local Output) (call : Call) (value : T) :
    Local → T → Prop where
  | enter : Begun sections call value (sections.enter call) value
  | access {here next : Local} {value₁ value₂ : T} (begun : Begun sections call value here value₁)
      (accessed : sections.access here value₁ = .ok (.inl next, value₂)) :
      Begun sections call value next value₂

inductive Sections.SerialRun (sections : Sections T Call Local Output) (ready : Call → T → Prop) :
    List (Thread × Call × Output) → T → T → Prop where
  | nil {value : T} : SerialRun sections ready [] value value
  | snoc {finished : List (Thread × Call × Output)} {value value' value'' : T} {thread : Thread}
      {call : Call} {output : Output} (earlier : SerialRun sections ready finished value value')
      (able : ready call value') (ran : sections.Ran (sections.enter call) value' output value'') :
      SerialRun sections ready (finished ++ [(thread, call, output)]) value value''

/-- A sequential account of the calls: on a good value a call that is ready runs through, leaves
a good value, and keeps other calls ready that it is apart from. -/
structure Service (sections : Sections T Call Local Output) where
  good : T → Prop
  ready : Call → T → Prop
  apart : Call → Call → Prop
  serves : ∀ call value, good value → ready call value →
    ∃ output value', sections.Ran (sections.enter call) value output value' ∧ good value' ∧
      ∀ other, apart call other → ready other value → ready other value'

def Phase.Pending (call : Call) : Phase Call Local Output → Prop
  | .waiting pending | .holding pending _ => pending = call
  | .outside | .dropping _ _ => False

theorem Phase.pending_holding {phase : Phase Call Local Output} {call : Call} {here : Local}
    (holding : phase = .holding call here) : phase.Pending call := holding ▸ rfl

/-- A client makes calls that are ready and apart from the pending ones. -/
def Service.Allows {sections : Sections T Call Local Output} (service : Service sections)
    (_thread : Thread) (call : Call) (system : System Thread T Call Local Output) : Prop :=
  service.ready call system.settled ∧ ∀ other pending, (system.phase other).Pending pending →
    service.apart call pending ∧ service.apart pending call

/-- The finished calls ran one after the other, and the thread with the guard continues where
they left the value. -/
structure System.Serial {sections : Sections T Call Local Output} (service : Service sections)
    (value : T) (system : System Thread T Call Local Output) : Prop where
  good : service.good system.settled
  ready : ∀ thread call, (system.phase thread).Pending call → service.ready call system.settled
  apart : ∀ thread other call pending, thread ≠ other → (system.phase thread).Pending call →
    (system.phase other).Pending pending → service.apart call pending
  run : sections.SerialRun service.ready system.finished value system.settled
  rest : (∀ thread call here, system.phase thread ≠ .holding call here) →
    system.mutex.value = system.settled
  inside : ∀ thread call here, system.phase thread = .holding call here →
    sections.Begun call system.settled here system.mutex.value

variable {sections : Sections T Call Local Output}

theorem Sections.Ran.next {here next : Local} {value value₁ value' : T} {output : Output}
    (ran : sections.Ran here value output value')
    (accessed : sections.access here value = .ok (.inl next, value₁)) :
    sections.Ran next value₁ output value' := by
  cases ran with
  | finish other => cases accessed.symm.trans other
  | access other later =>
      cases accessed.symm.trans other
      exact later

theorem Sections.Ran.finished {here : Local} {value value₁ value' : T} {output output₁ : Output}
    (ran : sections.Ran here value output value')
    (accessed : sections.access here value = .ok (.inr output₁, value₁)) :
    output = output₁ ∧ value' = value₁ := by
  cases ran with
  | finish other =>
      cases accessed.symm.trans other
      exact ⟨rfl, rfl⟩
  | access other later => cases accessed.symm.trans other

/-- What a call does alone, it does from where its first accesses have led. -/
theorem Sections.Ran.rest {call : Call} {here : Local} {value value₁ value' : T} {output : Output}
    (ran : sections.Ran (sections.enter call) value output value')
    (begun : sections.Begun call value here value₁) : sections.Ran here value₁ output value' := by
  induction begun with
  | enter => exact ran
  | access _ accessed ih => exact ih.next accessed

theorem Sections.Ran.unique {here : Local} {value value' value'' : T} {output output' : Output}
    (ran : sections.Ran here value output value') (other : sections.Ran here value output' value'') :
    output = output' ∧ value' = value'' := by
  induction ran with
  | finish accessed =>
      obtain ⟨same, same'⟩ := other.finished accessed
      exact ⟨same.symm, same'.symm⟩
  | access accessed _ ih => exact ih (other.next accessed)

variable {service : Service sections} {value : T} {system system' : System Thread T Call Local Output}
  {thread other : Thread} {move : Move Call} {phase : Phase Call Local Output}

theorem System.Serial.keep (serial : system.Serial service value)
    (settled : system'.settled = system.settled) (finished : system'.finished = system.finished)
    (pending : ∀ other call, (system'.phase other).Pending call ↔ (system.phase other).Pending call)
    (rest : (∀ thread call here, system'.phase thread ≠ .holding call here) →
      system'.mutex.value = system.settled)
    (inside : ∀ thread call here, system'.phase thread = .holding call here →
      sections.Begun call system.settled here system'.mutex.value) : system'.Serial service value where
  good := settled ▸ serial.good
  ready thread call waits := settled ▸ serial.ready thread call ((pending thread call).mp waits)
  apart thread other call call' different waits waits' :=
    serial.apart thread other call call' different ((pending _ _).mp waits) ((pending _ _).mp waits')
  run := settled ▸ finished ▸ serial.run
  rest none := settled ▸ rest none
  inside := settled ▸ inside

/-- A thread inside a call has done the beginning of what the call does alone. -/
theorem System.Serial.ran (serial : system.Serial service value) {call : Call} {here : Local}
    (holding : system.phase thread = .holding call here) : ∃ output value',
      sections.Ran (sections.enter call) system.settled output value' ∧
        sections.Ran here system.mutex.value output value' := by
  have able := serial.ready thread call (Phase.pending_holding holding)
  obtain ⟨output, value', ran, -⟩ := service.serves call system.settled serial.good able
  exact ⟨output, value', ran, ran.rest (serial.inside thread call here holding)⟩

theorem System.Serial.settles (serial : system.Serial service value)
    (free : ∀ thread, ¬ (system.phase thread).Guards) : system.mutex.value = system.settled :=
  serial.rest fun thread _ _ holding => free thread (Phase.guards_holding holding)

variable [DecidableEq Thread]

theorem goes_pending (same : ∀ call, (system.phase thread).Pending call ↔ phase.Pending call)
    (call : Call) :
    ((system.goes thread phase).phase other).Pending call ↔ (system.phase other).Pending call := by
  by_cases here : other = thread
  · subst here
    rw [goes_self, same]
  · rw [goes_other here]

theorem goes_holding (before : ∀ call here, system.phase thread ≠ .holding call here)
    (after : ∀ call here, phase ≠ .holding call here) (call : Call) (here : Local) :
    (system.goes thread phase).phase other = .holding call here ↔
      system.phase other = .holding call here := by
  by_cases same : other = thread
  · subst same
    rw [goes_self]
    exact iff_of_false (after call here) (before call here)
  · rw [goes_other same]

theorem goes_calls {call pending : Call}
    (waits : ((system.goes thread (.waiting call)).phase other).Pending pending) :
    (other = thread ∧ call = pending) ∨ (other ≠ thread ∧ (system.phase other).Pending pending) := by
  by_cases same : other = thread
  · subst same
    rw [goes_self] at waits
    exact Or.inl ⟨rfl, waits⟩
  · rw [goes_other same] at waits
    exact Or.inr ⟨same, waits⟩

theorem goes_finished {call pending : Call} {output : Output}
    (waits : ((system.goes thread (.dropping call output)).phase other).Pending pending) :
    other ≠ thread ∧ (system.phase other).Pending pending := by
  by_cases same : other = thread
  · subst same
    rw [goes_self] at waits
    cases waits
  · rw [goes_other same] at waits
    exact ⟨same, waits⟩

theorem System.Serial.called {call : Call} (serial : system.Serial service value)
    (allows : service.Allows thread call system) (outside : system.phase thread = .outside) :
    (system.goes thread (.waiting call)).Serial service value := by
  obtain ⟨ready, apart⟩ := allows
  have holding : ∀ {other} call' here, (system.goes thread (.waiting call)).phase other =
      .holding call' here ↔ system.phase other = .holding call' here :=
    goes_holding (by rw [outside]; exact fun _ _ impossible => nomatch impossible)
      fun _ _ impossible => nomatch impossible
  refine ⟨serial.good, fun other pending waits => ?_, fun first second one two different waits waits' => ?_,
    serial.run, fun none => ?_, fun other call' here inside => ?_⟩
  · rcases goes_calls waits with ⟨-, rfl⟩ | ⟨-, before⟩
    · exact ready
    · exact serial.ready other pending before
  · rcases goes_calls waits with ⟨rfl, rfl⟩ | ⟨-, before⟩ <;>
      rcases goes_calls waits' with ⟨rfl, rfl⟩ | ⟨-, before'⟩
    · exact absurd rfl different
    · exact (apart second two before').1
    · exact (apart first one before).2
    · exact serial.apart first second one two different before before'
  · exact serial.rest fun other call' here inside => none other call' here ((holding call' here).mpr inside)
  · exact serial.inside other call' here ((holding call' here).mp inside)

theorem System.Serial.locked {call : Call} {flag : Atomic Thread Bool}
    (serial : system.Serial service value) (free : ∀ other, ¬ (system.phase other).Guards)
    (waiting : system.phase thread = .waiting call) :
    System.Serial service value ({ system with mutex := { system.mutex with flag } }.goes thread
      (.holding call (sections.enter call))) := by
  -- Nobody has the guard, so the value is as the last finished call left it.
  have value_eq : system.mutex.value = system.settled := serial.settles free
  refine serial.keep rfl rfl (fun other => goes_pending (fun call => by rw [waiting]; rfl))
    (fun none => ?_) fun other call' here holding => ?_
  · exact absurd goes_self (none thread call (sections.enter call))
  · by_cases same : other = thread
    · subst same
      cases goes_self.symm.trans holding
      exact value_eq ▸ .enter
    · rw [goes_other same] at holding
      exact absurd (Phase.guards_holding holding) (free other)

theorem System.Serial.accessed {call : Call} {here next : Local} {value₁ : T}
    (serial : system.Serial service value) (only : ∀ other, (system.phase other).Guards → other = thread)
    (holding : system.phase thread = .holding call here)
    (accessed : sections.access here system.mutex.value = .ok (.inl next, value₁)) :
    System.Serial service value ({ system with
      mutex := ⟨value₁, system.mutex.flag.access thread⟩ }.goes thread (.holding call next)) := by
  refine serial.keep rfl rfl (fun other => goes_pending (fun call => by rw [holding]; rfl))
    (fun none => ?_) fun other call' here' inside => ?_
  · exact absurd goes_self (none thread call next)
  · by_cases same : other = thread
    · subst same
      cases goes_self.symm.trans inside
      exact (serial.inside _ _ _ holding).access accessed
    · rw [goes_other same] at inside
      exact absurd (only other (Phase.guards_holding inside)) same

theorem System.Serial.completed {call : Call} {here : Local} {output : Output} {value₁ : T}
    (serial : system.Serial service value) (only : ∀ other, (system.phase other).Guards → other = thread)
    (holding : system.phase thread = .holding call here)
    (accessed : sections.access here system.mutex.value = .ok (.inr output, value₁)) :
    System.Serial service value ({ system with
      mutex := ⟨value₁, system.mutex.flag.access thread⟩
      settled := value₁
      finished := system.finished ++ [(thread, call, output)] }.goes thread
        (.dropping call output)) := by
  have pending : (system.phase thread).Pending call := Phase.pending_holding holding
  obtain ⟨output', value', ran, good, keeps⟩ :=
    service.serves call system.settled serial.good (serial.ready thread call pending)
  -- This was the last access, so the call did what it does alone.
  obtain ⟨rfl, rfl⟩ := (ran.rest (serial.inside thread call here holding)).finished accessed
  refine ⟨good, fun other call' waits => ?_, fun first second one two different waits waits' => ?_,
    serial.run.snoc (serial.ready thread call pending) ran, fun _ => rfl,
    fun other call' here' inside => ?_⟩
  · obtain ⟨different, before⟩ := goes_finished waits
    exact keeps call' (serial.apart thread other call call' different.symm pending before)
      (serial.ready other call' before)
  · exact serial.apart first second one two different (goes_finished waits).2 (goes_finished waits').2
  · by_cases same : other = thread
    · subst same
      cases goes_self.symm.trans inside
    · rw [goes_other same] at inside
      exact absurd (only other (Phase.guards_holding inside)) same

theorem System.Serial.dropped {call : Call} {output : Output} {flag : Atomic Thread Bool}
    (serial : system.Serial service value) (dropping : system.phase thread = .dropping call output) :
    System.Serial service value
      ({ system with mutex := { system.mutex with flag } }.goes thread .outside) := by
  have holding : ∀ {other} call' here, (system.goes thread .outside).phase other =
      .holding call' here ↔ system.phase other = .holding call' here :=
    goes_holding (by rw [dropping]; exact fun _ _ impossible => nomatch impossible)
      fun _ _ impossible => nomatch impossible
  refine serial.keep rfl rfl (fun other => goes_pending (fun call => by rw [dropping]; rfl))
    (fun none => ?_) fun other call' here inside => ?_
  · exact serial.rest fun other call' here inside => none other call' here ((holding call' here).mpr inside)
  · exact serial.inside other call' here ((holding call' here).mp inside)

theorem System.Step.serial (stepped : System.Step sections thread move system system')
    (permitted : ∀ call, move = .call call → service.Allows thread call system)
    (exclusive : system.Exclusive) (serial : system.Serial service value) :
    system'.Serial service value := by
  have only : (system.phase thread).Guards → ∀ other, (system.phase other).Guards → other = thread :=
    fun guarding => (exclusive.only guarding).1
  cases stepped with
  | @call _ call outside => exact serial.called (permitted call rfl) outside
  | spin waiting failed =>
      exact serial.keep rfl rfl (fun _ _ => Iff.rfl) serial.rest serial.inside
  | lock waiting exchanged =>
      cases exchanged with
      | exchanged cut unlinked matched =>
          exact serial.locked (exclusive.cleared cut unlinked matched).2.1 waiting
  | access holding accessed =>
      exact serial.accessed (only (Phase.guards_holding holding)) holding accessed
  | finish holding accessed =>
      exact serial.completed (only (Phase.guards_holding holding)) holding accessed
  | drop dropping stored => exact serial.dropped dropping

omit [DecidableEq Thread] in
theorem System.Serial.start (good : service.good value) :
    (System.start value : System Thread T Call Local Output).Serial service value :=
  ⟨good, fun _ _ impossible => impossible.elim, fun _ _ _ _ _ impossible => impossible.elim,
    .nil, fun _ => rfl, fun _ _ _ impossible => nomatch impossible⟩

theorem System.Reached.serial (good : service.good value)
    (reached : System.Reached sections service.Allows value system) : system.Serial service value := by
  induction reached with
  | start => exact .start good
  | step reached permitted stepped ih => exact stepped.serial permitted reached.exclusive ih

/-- Calls through the mutex take effect one after the other, in the order in which they finish,
with the outputs that they have alone. While no thread has the guard the value is as the last
of them left it, and a thread inside a call has done the beginning of what the call does alone. -/
theorem mutex_serializes (good : service.good value)
    (reached : System.Reached sections service.Allows value system) :
    sections.SerialRun service.ready system.finished value system.settled ∧
      ((∀ thread, ¬ (system.phase thread).Guards) → system.mutex.value = system.settled) ∧
      ∀ thread call here, system.phase thread = .holding call here → ∃ output value',
        sections.Ran (sections.enter call) system.settled output value' ∧
          sections.Ran here system.mutex.value output value' := by
  have serial := reached.serial good
  exact ⟨serial.run, serial.settles, fun _ _ _ holding => serial.ran holding⟩

def Move.Advances : Move Call → Prop
  | .lock | .access | .drop => True
  | .call _ | .spin => False

def System.Advance (sections : Sections T Call Local Output)
    (system system' : System Thread T Call Local Output) : Prop :=
  ∃ thread move, move.Advances ∧ System.Step sections thread move system system'

variable (sections) in
theorem System.drops {call : Call} {output : Output}
    (dropping : system.phase thread = .dropping call output) : ∃ flag,
      System.Step sections thread .drop system
        ({ system with mutex := { system.mutex with flag } }.goes thread .outside) := by
  have cut : system.mutex.flag.Cut thread system.mutex.flag.messages [] :=
    ⟨(List.append_nil _).symm, by simp⟩
  exact ⟨_, .drop dropping (.stored cut (by simp [Atomic.Unlinked]))⟩

variable (sections) in
theorem System.Exclusive.locks (exclusive : system.Exclusive)
    (free : ∀ other, ¬ (system.phase other).Guards) {call : Call}
    (waits : system.phase thread = .waiting call) : ∃ flag,
      System.Step sections thread .lock system ({ system with mutex := { system.mutex with flag } }.goes
        thread (.holding call (sections.enter call))) := by
  obtain ⟨older, last, split, newest⟩ := exclusive.newest
  cases newest with
  | taken holder set only => exact absurd ((only holder).mpr rfl) (free holder)
  | free clear none publishes =>
      have cut : system.mutex.flag.Cut thread (older ++ [last]) [] :=
        ⟨by rw [split, List.append_nil], by simp⟩
      exact ⟨_, .lock waits (.exchanged cut (by simp [Atomic.Unlinked]) clear)⟩

variable (sections) in
theorem System.Exclusive.spins (exclusive : system.Exclusive) {call : Call}
    (waits : system.phase thread = .waiting call) : ∃ flag,
      System.Step sections thread .spin system { system with mutex := { system.mutex with flag } } := by
  obtain ⟨older, last, split, -⟩ := exclusive.newest
  have cut : system.mutex.flag.Cut thread (older ++ [last]) [] :=
    ⟨by rw [split, List.append_nil], by simp⟩
  exact ⟨_, .spin waits (.failed cut)⟩

theorem System.Serial.advances (serial : system.Serial service value)
    (guarding : (system.phase thread).Guards) :
    ∃ move system', move.Advances ∧ System.Step sections thread move system system' := by
  cases phase : system.phase thread with
  | outside | waiting =>
      rw [phase] at guarding
      exact guarding.elim
  | holding call here =>
      obtain ⟨output, value', -, ran⟩ := serial.ran phase
      cases ran with
      | finish accessed => exact ⟨.access, _, trivial, .finish phase accessed⟩
      | access accessed => exact ⟨.access, _, trivial, .access phase accessed⟩
  | dropping call output =>
      obtain ⟨_, drops⟩ := System.drops sections phase
      exact ⟨.drop, _, trivial, drops⟩

theorem System.Serial.progress (serial : system.Serial service value) (exclusive : system.Exclusive)
    (busy : system.phase thread ≠ .outside) :
    ∃ other move system', move.Advances ∧ System.Step sections other move system system' := by
  by_cases guarded : ∃ other, (system.phase other).Guards
  · obtain ⟨other, guarding⟩ := guarded
    exact ⟨other, serial.advances guarding⟩
  · have free : ∀ other, ¬ (system.phase other).Guards := fun other guarding => guarded ⟨other, guarding⟩
    cases phase : system.phase thread with
    | outside => exact absurd phase busy
    | holding => exact absurd (Phase.guards_holding phase) (free thread)
    | dropping => exact absurd (Phase.guards_dropping phase) (free thread)
    | waiting call =>
        obtain ⟨_, locks⟩ := exclusive.locks sections free phase
        exact ⟨thread, .lock, _, trivial, locks⟩

/-- Threads do not block each other for ever: while a thread is not outside, some thread can
lock, go on inside its call without a fault, or drop the guard. -/
theorem mutex_progress (good : service.good value)
    (reached : System.Reached sections service.Allows value system)
    (busy : system.phase thread ≠ .outside) :
    ∃ other move system', move.Advances ∧ System.Step sections other move system system' :=
  (reached.serial good).progress reached.exclusive busy

theorem System.leaves {call : Call} {here : Local} {output : Output} {value' : T}
    (holding : system.phase thread = .holding call here)
    (ran : sections.Ran here system.mutex.value output value') :
    ∃ system', Relation.ReflTransGen (System.Advance sections) system system' ∧
      system'.phase = Function.update system.phase thread .outside ∧
      system'.mutex.value = value' ∧ system'.settled = value' ∧
      system'.finished = system.finished ++ [(thread, call, output)] := by
  -- The induction is on what the call still has to do.
  generalize there : system.mutex.value = now at ran
  induction ran generalizing system with
  | @finish _ now value' output accessed =>
      subst there
      obtain ⟨between, ends, dropping, phase, same⟩ : ∃ between,
          System.Step sections thread .access system between ∧
          between.phase thread = .dropping call output ∧
          between.phase = Function.update system.phase thread (.dropping call output) ∧
          between.mutex.value = value' ∧ between.settled = value' ∧
          between.finished = system.finished ++ [(thread, call, output)] :=
        ⟨_, .finish holding accessed, goes_self, rfl, rfl, rfl, rfl⟩
      obtain ⟨flag, drops⟩ := System.drops sections dropping
      refine ⟨_, (Relation.ReflTransGen.single ⟨thread, .access, trivial, ends⟩).tail
        ⟨thread, .drop, trivial, drops⟩, ?_, same⟩
      exact (congrArg (Function.update · thread .outside) phase).trans (Function.update_idem _ _ _)
  | @access _ next now value₁ _ _ accessed later ih =>
      subst there
      obtain ⟨between, goes, inside, phase, value, settled, finished⟩ : ∃ between,
          System.Step sections thread .access system between ∧
          between.phase thread = .holding call next ∧
          between.phase = Function.update system.phase thread (.holding call next) ∧
          between.mutex.value = value₁ ∧ between.settled = system.settled ∧
          between.finished = system.finished :=
        ⟨_, .access holding accessed, goes_self, rfl, rfl, rfl, rfl⟩
      obtain ⟨system', steps, outside, ends⟩ := ih inside value
      rw [phase, Function.update_idem] at outside
      rw [finished] at ends
      exact ⟨system', .head ⟨thread, .access, trivial, goes⟩ steps, outside, ends⟩

/-- While nobody has the guard, a call that a thread has made can run through. -/
theorem System.Exclusive.completes (exclusive : system.Exclusive)
    (free : ∀ other, ¬ (system.phase other).Guards) {call : Call} {output : Output} {value' : T}
    (waits : system.phase thread = .waiting call)
    (ran : sections.Ran (sections.enter call) system.mutex.value output value') :
    ∃ system', Relation.ReflTransGen (System.Advance sections) system system' ∧
      system'.phase = Function.update system.phase thread .outside ∧
      system'.mutex.value = value' ∧ system'.settled = value' ∧
      system'.finished = system.finished ++ [(thread, call, output)] := by
  obtain ⟨flag, locks⟩ := exclusive.locks sections free waits
  obtain ⟨between, locks, inside, phase, value, finished⟩ : ∃ between,
      System.Step sections thread .lock system between ∧
      between.phase thread = .holding call (sections.enter call) ∧
      between.phase = Function.update system.phase thread (.holding call (sections.enter call)) ∧
      between.mutex.value = system.mutex.value ∧ between.finished = system.finished :=
    ⟨_, locks, goes_self, rfl, rfl, rfl⟩
  rw [← value] at ran
  obtain ⟨system', steps, outside, ends⟩ := System.leaves inside ran
  rw [phase, Function.update_idem] at outside
  rw [finished] at ends
  exact ⟨system', .head ⟨thread, .lock, trivial, locks⟩ steps, outside, ends⟩

theorem System.Exclusive.enters (exclusive : system.Exclusive)
    (free : ∀ other, ¬ (system.phase other).Guards) {call : Call} {here : Local} {value' : T}
    (waits : system.phase thread = .waiting call)
    (begun : sections.Begun call system.mutex.value here value') :
    ∃ system', Relation.ReflTransGen (System.Advance sections) system system' ∧
      system'.phase = Function.update system.phase thread (.holding call here) ∧
      system'.mutex.value = value' ∧ system'.settled = system.settled ∧
      system'.finished = system.finished := by
  induction begun with
  | enter =>
      obtain ⟨flag, locks⟩ := exclusive.locks sections free waits
      exact ⟨_, .single ⟨thread, .lock, trivial, locks⟩, rfl, rfl, rfl, rfl⟩
  | @access here next _ value₂ _ accessed ih =>
      obtain ⟨between, steps, phase, rfl, settled, finished⟩ := ih
      have inside : between.phase thread = .holding call here := by
        rw [phase, Function.update_self]
      have goes : System.Step sections thread .access between _ := .access inside accessed
      refine ⟨_, steps.tail ⟨thread, .access, trivial, goes⟩, ?_, rfl, settled, finished⟩
      exact (congrArg (Function.update · thread _) phase).trans (Function.update_idem _ _ _)

theorem System.Reached.forward {allowed : Thread → Call → System Thread T Call Local Output → Prop}
    (reached : System.Reached sections allowed value system)
    (steps : Relation.ReflTransGen (System.Advance sections) system system') :
    System.Reached sections allowed value system' := by
  induction steps with
  | refl => exact reached
  | tail _ step ih =>
      obtain ⟨thread, move, advances, stepped⟩ := step
      exact ih.step (by rintro call rfl; exact advances.elim) stepped

end Serial

section Sample

/-- A counter that a call reads in one access and increments in the next. -/
def counting : Sections Nat Unit (Option Nat) Nat where
  enter _ := none
  access here value :=
    match here with
    | none => .ok (.inl (some value), value)
    | some seen => .ok (.inr seen, seen + 1)

def counter : Service counting where
  good _ := True
  ready _ _ := True
  apart _ _ := True
  serves _ value _ _ := ⟨value, value + 1, .access rfl (.finish rfl), trivial, fun _ _ _ => trivial⟩

theorem sample_counting : ∃ system : System Bool Nat Unit (Option Nat) Nat,
    System.Reached counting counter.Allows 0 system ∧ system.phase false = .waiting () ∧
      system.phase true = .holding () (some 1) ∧ system.finished = [(false, (), 0)] := by
  have calls : ∀ {system : System Bool Nat Unit (Option Nat) Nat} {thread},
      System.Reached counting counter.Allows 0 system → system.phase thread = .outside →
        System.Reached counting counter.Allows 0 (system.goes thread (.waiting ())) :=
    fun reached outside =>
      reached.step (fun _ _ => ⟨trivial, fun _ _ _ => ⟨trivial, trivial⟩⟩) (.call outside)
  have began := calls .start (rfl : (System.start 0).phase false = .outside)
  obtain ⟨first, steps, phase, value, -, finished⟩ := began.exclusive.completes
    (by rintro (_ | _) guarding <;> exact guarding) goes_self
    (.access rfl (.finish rfl) : counting.Ran (counting.enter ()) 0 0 1)
  have outside : ∀ thread, first.phase thread = .outside := by
    rintro (_ | _) <;> rw [phase] <;> rfl
  have waits := calls (began.forward steps) (outside true)
  have other : (first.goes true (.waiting ())).phase false = .outside :=
    (goes_other (by decide)).trans (outside false)
  obtain ⟨second, steps', phase', -, -, finished'⟩ := waits.exclusive.enters
    (by rintro (_ | _) guarding
        · rw [other] at guarding
          exact guarding
        · exact guarding) goes_self
    (.access .enter (by rw [show (first.goes true (.waiting ())).mutex.value = 1 from value]; rfl) :
      counting.Begun () _ (some 1) 1)
  have inside : second.phase true = .holding () (some 1) := by rw [phase', Function.update_self]
  have again := calls (waits.forward steps') (show second.phase false = .outside by
    rw [phase', Function.update_of_ne (by decide), other])
  obtain ⟨flag, spins⟩ := again.exclusive.spins counting goes_self
  have waiting : (second.goes false (.waiting ())).phase false = .waiting () := goes_self
  have holding : (second.goes false (.waiting ())).phase true = .holding () (some 1) :=
    (goes_other (by decide)).trans inside
  exact ⟨_, again.step (by rintro _ ⟨⟩) spins, waiting, holding, finished'.trans finished⟩

/-- The thread with the guard excludes the one that spins. -/
theorem mutex_excludes_sample : ∃ system : System Bool Nat Unit (Option Nat) Nat,
    system.phase false = .waiting () ∧ system.phase true = .holding () (some 1) ∧
      (∀ other, (system.phase other).Guards → other = true) ∧
      system.mutex.flag.Ordered true := by
  obtain ⟨system, reached, waiting, holding, -⟩ := sample_counting
  exact ⟨system, waiting, holding, mutex_excludes reached (Phase.guards_holding holding)⟩

theorem mutex_serializes_sample : ∃ system : System Bool Nat Unit (Option Nat) Nat,
    system.phase true = .holding () (some 1) ∧ system.finished = [(false, (), 0)] ∧
      counting.SerialRun counter.ready system.finished 0 system.settled ∧
      ∃ output value', counting.Ran (counting.enter ()) system.settled output value' ∧
        counting.Ran (some 1) system.mutex.value output value' := by
  obtain ⟨system, reached, -, holding, finished⟩ := sample_counting
  obtain ⟨run, -, inside⟩ := mutex_serializes trivial reached
  exact ⟨system, holding, finished, run, inside true () (some 1) holding⟩

/-- The one that spins does not wait for ever. -/
theorem mutex_progress_sample : ∃ system : System Bool Nat Unit (Option Nat) Nat,
    system.phase false = .waiting () ∧ system.phase true = .holding () (some 1) ∧
      ∃ other move system', move.Advances ∧ System.Step counting other move system system' := by
  obtain ⟨system, reached, waiting, holding, -⟩ := sample_counting
  have busy : system.phase false ≠ .outside := by
    rw [waiting]
    exact fun impossible => nomatch impossible
  exact ⟨system, waiting, holding, mutex_progress trivial reached busy⟩

end Sample

end Picoalloc
