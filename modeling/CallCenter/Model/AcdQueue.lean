import CallCenter.Foundation.PriorityQueue
import CallCenter.Model.Records

/-!
# The ACD queue

`priorityqueue` of `ACDqueue.h` at the session type: a semaphore that counts the elements
and the heap behind it.  The field `counted` ties the two, so a `get` that passes the
semaphore always finds a top element.
-/

namespace CallCenter.Model

open CallCenter.Foundation

structure AcdQueue where
  psem : Nat
  queue : PriorityQueue IvrSession
  counted : queue.elements.length = psem

namespace AcdQueue

def empty : AcdQueue := ⟨0, .empty, rfl⟩

/-- The sessions in the queue, in heap order. -/
def elements (q : AcdQueue) : List IvrSession := q.queue.elements

def put (elem : IvrSession) (q : AcdQueue) : AcdQueue where
  psem := q.psem + 1
  queue := q.queue.push IvrSession.less elem
  counted := by
    rw [(PriorityQueue.push_perm _ _ _).length_eq, List.length_cons, q.counted]

/-- `get` with an infinite timeout: `none` while the semaphore keeps the caller waiting. -/
def get (q : AcdQueue) : Option (IvrSession × AcdQueue) :=
  match atTop : q.queue.top? with
  | none => none
  | some elem =>
    some (elem, {
      psem := q.psem - 1
      queue := q.queue.pop IvrSession.less
      counted := by
        have removed := (PriorityQueue.top_cons_pop_perm IvrSession.less atTop).length_eq
        rw [List.length_cons, q.counted] at removed
        omega })

@[simp] theorem elements_empty : elements empty = [] := rfl

theorem elements_put (elem : IvrSession) (q : AcdQueue) :
    (q.put elem).elements.Perm (elem :: q.elements) :=
  PriorityQueue.push_perm _ _ _

/-- `get` hands out one element and leaves the others. -/
theorem elements_get {q rest : AcdQueue} {elem : IvrSession} (got : q.get = some (elem, rest)) :
    (elem :: rest.elements).Perm q.elements := by
  unfold get at got
  split at got
  · contradiction
  · rename_i top atTop
    cases got
    exact PriorityQueue.top_cons_pop_perm IvrSession.less atTop

/-- The caller waits exactly when the count is zero. -/
theorem get_eq_none_iff {q : AcdQueue} : q.get = none ↔ q.psem = 0 := by
  have count := q.counted
  unfold get
  split
  · rename_i atTop
    have size : q.queue.elements.length = 0 := by
      simpa [PriorityQueue.top?, PriorityQueue.elements] using atTop
    simp only [true_iff]
    omega
  · rename_i top atTop
    have nonempty := List.length_pos_of_mem (PriorityQueue.top?_mem atTop)
    simp only [reduceCtorEq, false_iff]
    omega

end AcdQueue

end CallCenter.Model
