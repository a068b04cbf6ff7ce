import Mathlib

/-!
One atomic that threads share, under release and acquire ordering, and the accesses to
other memory that each thread knows to have happened before. The writes of the atomic are
messages in modification order. A thread reads any message that is not older than one it
has seen, so it may read stale ones; only an exchange has to read the message directly
before its own.
-/

namespace Picoalloc.Atomics

inductive Order where
  | relaxed
  | acquire
  | release
  | acqRel
  deriving DecidableEq, Repr

def Order.acquires : Order → Bool
  | .acquire | .acqRel => true
  | .relaxed | .release => false

def Order.releases : Order → Bool
  | .release | .acqRel => true
  | .relaxed | .acquire => false

variable {Thread Value : Type}

/-- A write, with the accesses that it publishes. -/
structure Message (Value : Type) where
  stamp : Nat
  value : Value
  exchanged : Bool
  published : Set Nat

/-- The messages, oldest first, which of them each thread has seen, the number of accesses
so far and which of them each thread knows. -/
structure Atomic (Thread Value : Type) where
  messages : List (Message Value)
  stamps : Nat
  accesses : Nat
  seen : Thread → Set Nat
  knows : Thread → Set Nat

namespace Atomic

def new (value : Value) : Atomic Thread Value where
  messages := [⟨0, value, false, ∅⟩]
  stamps := 1
  accesses := 0
  seen _ := {0}
  knows _ := ∅

section Updates

variable [DecidableEq Thread]

def observe (order : Order) (thread : Thread) (message : Message Value)
    (atomic : Atomic Thread Value) : Atomic Thread Value :=
  { atomic with
    seen := Function.update atomic.seen thread (insert message.stamp (atomic.seen thread))
    knows := Function.update atomic.knows thread
      (if order.acquires then atomic.knows thread ∪ message.published else atomic.knows thread) }

/-- A thread writes between two parts of the modification order. -/
def insertMessage (order : Order) (thread : Thread) (value : Value) (exchanged : Bool)
    (inherited : Set Nat) (older newer : List (Message Value)) (atomic : Atomic Thread Value) :
    Atomic Thread Value :=
  { atomic with
    messages := older ++ ⟨atomic.stamps, value, exchanged,
      if order.releases then inherited ∪ atomic.knows thread else inherited⟩ :: newer
    stamps := atomic.stamps + 1
    seen := Function.update atomic.seen thread (insert atomic.stamps (atomic.seen thread)) }

def access (thread : Thread) (atomic : Atomic Thread Value) : Atomic Thread Value :=
  { atomic with
    accesses := atomic.accesses + 1
    knows := Function.update atomic.knows thread (insert atomic.accesses (atomic.knows thread)) }

end Updates

structure Cut (atomic : Atomic Thread Value) (thread : Thread) (older newer : List (Message Value)) :
    Prop where
  messages : atomic.messages = older ++ newer
  unseen : ∀ message ∈ newer, message.stamp ∉ atomic.seen thread

/-- What is written at a cut does not come between an exchange and the message it read. -/
def Unlinked (newer : List (Message Value)) : Prop :=
  ∀ message ∈ newer.head?, message.exchanged = false

section Operations

variable [DecidableEq Thread]

inductive Store (order : Order) (thread : Thread) (value : Value) :
    Atomic Thread Value → Atomic Thread Value → Prop where
  | stored {atomic : Atomic Thread Value} {older newer : List (Message Value)}
      (cut : atomic.Cut thread older newer) (unlinked : Unlinked newer) :
      Store order thread value atomic (atomic.insertMessage order thread value false ∅ older newer)

/-- `compare_exchange_weak`. It writes only where it reads the expected value, and may fail
on any message. A message that an exchange writes goes on publishing what the one it read
published. -/
inductive CompareExchangeWeak (success failure : Order) (thread : Thread) (expected desired : Value) :
    Bool → Atomic Thread Value → Atomic Thread Value → Prop where
  | exchanged {atomic : Atomic Thread Value} {message : Message Value}
      {older newer : List (Message Value)} (cut : atomic.Cut thread (older ++ [message]) newer)
      (unlinked : Unlinked newer) (matched : message.value = expected) :
      CompareExchangeWeak success failure thread expected desired true atomic
        ((atomic.observe success thread message).insertMessage success thread desired true
          message.published (older ++ [message]) newer)
  | failed {atomic : Atomic Thread Value} {message : Message Value} {older newer : List (Message Value)}
      (cut : atomic.Cut thread (older ++ [message]) newer) :
      CompareExchangeWeak success failure thread expected desired false atomic
        (atomic.observe failure thread message)

end Operations

/-- A thread knows of every access so far, so that its next one races with none. -/
def Ordered (atomic : Atomic Thread Value) (thread : Thread) : Prop :=
  ∀ event < atomic.accesses, event ∈ atomic.knows thread

def Publishes (atomic : Atomic Thread Value) (message : Message Value) : Prop :=
  ∀ event < atomic.accesses, event ∈ message.published

section Lemmas

variable {atomic : Atomic Thread Value} {thread other : Thread} {message last : Message Value}
  {older newer rest : List (Message Value)} {order : Order} {value : Value} {exchanged : Bool}
  {inherited : Set Nat} {stamp : Nat}

theorem Cut.newest (cut : atomic.Cut thread older newer) (messages : atomic.messages = rest ++ [last])
    (seen : last.stamp ∈ atomic.seen thread) : newer = [] ∧ older = rest ++ [last] := by
  have split := cut.messages.symm.trans messages
  rcases List.eq_nil_or_concat newer with rfl | ⟨front, final, rfl⟩
  · exact ⟨rfl, by simpa using split⟩
  · rw [List.concat_eq_append, ← List.append_assoc] at split
    obtain ⟨-, tail⟩ := List.append_inj' split rfl
    obtain rfl := List.singleton_inj.mp tail
    exact absurd seen (cut.unseen final (by simp))

variable [DecidableEq Thread]

@[simp] theorem observe_messages : (atomic.observe order thread message).messages = atomic.messages :=
  rfl

@[simp] theorem observe_accesses : (atomic.observe order thread message).accesses = atomic.accesses :=
  rfl

@[simp] theorem insertMessage_accesses :
    (atomic.insertMessage order thread value exchanged inherited older newer).accesses =
      atomic.accesses := rfl

@[simp] theorem insertMessage_knows :
    (atomic.insertMessage order thread value exchanged inherited older newer).knows = atomic.knows :=
  rfl

@[simp] theorem access_messages : (atomic.access thread).messages = atomic.messages := rfl

@[simp] theorem access_seen : (atomic.access thread).seen = atomic.seen := rfl

theorem observe_seen (known : stamp ∈ atomic.seen other) :
    stamp ∈ (atomic.observe order thread message).seen other := by
  by_cases same : other = thread
  · subst same
    simp [observe, known]
  · simpa [observe, same] using known

theorem Ordered.observe (ordered : atomic.Ordered other) :
    (atomic.observe order thread message).Ordered other := by
  intro event early
  have known := ordered event early
  by_cases same : other = thread
  · subst same
    cases acquires : order.acquires <;> simp [Atomic.observe, acquires, known]
  · simpa [Atomic.observe, same] using known

theorem Publishes.acquired (publishes : atomic.Publishes message) (acquires : order.acquires = true) :
    (atomic.observe order thread message).Ordered thread := by
  intro event early
  simp [Atomic.observe, acquires, publishes event early]

theorem Ordered.access (ordered : atomic.Ordered thread) : (atomic.access thread).Ordered thread := by
  intro event early
  have early : event < atomic.accesses + 1 := early
  rcases Nat.lt_succ_iff_lt_or_eq.mp early with before | rfl
  · simp [Atomic.access, ordered event before]
  · simp [Atomic.access]

end Lemmas

end Atomic

end Picoalloc.Atomics
