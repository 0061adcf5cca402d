import CallCenter.Foundation.Runs
import CallCenter.Model.AcdQueue

/-!
# The threads of a priority queue

`priorityqueue` of `ACDqueue.h` between any number of threads.  The semaphore and the container are
two objects: `put` signals after its push, `get` waits before it takes the mutex.  A step is what
one thread does to one of the two; of a thread inside an operation it is recorded where it stands.
-/

namespace CallCenter.Model

open CallCenter.Foundation

/-- A thread that holds `m_mutex` between two steps: a `put` that has pushed and not yet signalled, or
a `clear` in its loop. -/
inductive QueueHolder where
  | put (thread : Nat)
  | clear (thread : Nat)
  deriving DecidableEq, Repr

/-- The queue and its threads.  `waited` are the `get`s whose wait returned 0 and that have not popped;
`poppedEmpty` is whether a `get` called `top` on an empty container, after which nothing is promised. -/
structure QueueThreads (ElemType : Type) where
  psem : Nat := 0
  queue : PriorityQueue ElemType := .empty
  mutex : Option QueueHolder := none
  waited : List Nat := []
  poppedEmpty : Bool := false

inductive QueueThreadAction (ElemType : Type) where
  /-- `put` up to its push; `allocated` is whether the push found memory. -/
  | push (thread : Nat) (elem : ElemType) (allocated : Bool)
  /-- The rest of that `put`. -/
  | signal (thread : Nat)
  /-- The wait of a `get`; `arrived` is whether it ended before its time was up. -/
  | wait (thread : Nat) (arrived : Bool)
  /-- The rest of a `get` whose wait returned 0. -/
  | pop (thread : Nat)
  | clear (thread : Nat)
  /-- One pass of the loop of `clear`, or its end. -/
  | clearPass (thread : Nat)
  | size (thread : Nat)
  deriving DecidableEq, Repr

namespace QueueThreads

variable {ElemType : Type}

/-- The thread is inside an operation. -/
def busy (threads : QueueThreads ElemType) (thread : Nat) : Bool :=
  threads.mutex == some (.put thread) || threads.mutex == some (.clear thread) || threads.waited.contains thread

/-- One step; `none` where the thread has to wait for the mutex or the semaphore, or is not there. -/
def step (less : ElemType → ElemType → Bool) (threads : QueueThreads ElemType) :
    QueueThreadAction ElemType → Option (QueueThreads ElemType)
  | .push thread elem allocated =>
    if threads.busy thread = false ∧ threads.mutex = none then
      if allocated then
        some { threads with queue := threads.queue.push less elem, mutex := some (.put thread) }
      else
        some threads
    else none
  | .signal thread =>
    if threads.mutex = some (.put thread) then
      some { threads with psem := threads.psem + 1, mutex := none }
    else none
  | .wait thread arrived =>
    if threads.busy thread = false then
      if arrived then
        if 0 < threads.psem then
          some { threads with psem := threads.psem - 1, waited := thread :: threads.waited }
        else none
      else some threads
    else none
  | .pop thread =>
    if thread ∈ threads.waited ∧ threads.mutex = none then
      match threads.queue.top? with
      | some _ => some { threads with queue := threads.queue.pop less, waited := threads.waited.erase thread }
      | none => some { threads with waited := threads.waited.erase thread, poppedEmpty := true }
    else none
  | .clear thread =>
    if threads.busy thread = false ∧ threads.mutex = none then
      some { threads with mutex := some (.clear thread) }
    else none
  | .clearPass thread =>
    if threads.mutex = some (.clear thread) then
      match threads.queue.top? with
      | some _ => some { threads with queue := threads.queue.pop less }
      | none => some { threads with mutex := none }
    else none
  | .size thread => if threads.busy thread = false then some threads else none

end QueueThreads

end CallCenter.Model
