import CallCenter.Model.QueueThreads
import CallCenter.Verified.ServiceOrder

/-!
# One signal for every element

The semaphore of a priority queue, together with the threads between its two halves, counts the
elements of the container: while no `clear` finds an element, which it would take without its signal.
-/

namespace CallCenter.Verified

open CallCenter.Foundation CallCenter.Model

variable {ElemType : Type} {less : ElemType → ElemType → Bool}

/-- The elements pushed and not yet signalled. -/
def signalling (threads : QueueThreads ElemType) : Nat :=
  match threads.mutex with
  | some (.put _) => 1
  | _ => 0

/-- What the semaphore promises its waiters. -/
structure InStep (threads : QueueThreads ElemType) : Prop where
  counted : threads.psem + threads.waited.length + signalling threads = threads.queue.elements.length
  neverEmpty : threads.poppedEmpty = false

/-- A `clear` begins only while the queue is empty. -/
def ClearsEmpty (threads : QueueThreads ElemType) : QueueThreadAction ElemType → Prop
  | .clear _ => threads.queue.elements = []
  | _ => True

instance (threads : QueueThreads ElemType) : (action : QueueThreadAction ElemType) →
    Decidable (ClearsEmpty threads action)
  | .clear _ => decidable_of_iff (threads.queue.elements.isEmpty = true) List.isEmpty_iff
  | .push _ _ _ | .signal _ | .wait _ _ | .pop _ | .clearPass _ | .size _ => isTrue trivial

/-- The invariant: and a `clear` in its loop has nothing to take. -/
structure SignalInvariant (threads : QueueThreads ElemType) : Prop where
  inStep : InStep threads
  nothingToClear : ∀ thread, threads.mutex = some (.clear thread) → threads.queue.elements = []

theorem elements_eq_nil_iff {queue : PriorityQueue ElemType} : queue.elements = [] ↔ queue.top? = none := by
  simp [PriorityQueue.elements, PriorityQueue.top?]

theorem signalInvariant_step {threads after : QueueThreads ElemType} {action : QueueThreadAction ElemType}
    (invariant : SignalInvariant threads) (condition : ClearsEmpty threads action)
    (taken : threads.step less action = some after) : SignalInvariant after := by
  obtain ⟨⟨counted, neverEmpty⟩, nothingToClear⟩ := invariant
  cases action with
  | push thread elem allocated =>
    simp only [QueueThreads.step, Option.ite_none_right_eq_some] at taken
    obtain ⟨⟨_, free⟩, taken⟩ := taken
    simp only [signalling, free, Nat.add_zero] at counted
    cases allocated with
    | false =>
      obtain rfl := Option.some.inj taken
      exact ⟨⟨by simpa [signalling, free] using counted, neverEmpty⟩, nothingToClear⟩
    | true =>
      obtain rfl := Option.some.inj taken
      refine ⟨⟨?_, neverEmpty⟩, fun _ clearing => by simp at clearing⟩
      -- one element more, and one thread that still has to signal it
      have pushed := (PriorityQueue.push_perm less threads.queue elem).length_eq
      rw [List.length_cons] at pushed
      simp only [signalling]
      omega
  | signal thread =>
    simp only [QueueThreads.step, Option.ite_none_right_eq_some] at taken
    obtain ⟨holds, taken⟩ := taken
    obtain rfl := Option.some.inj taken
    refine ⟨⟨?_, neverEmpty⟩, fun _ clearing => by simp at clearing⟩
    -- what the thread owed is in the semaphore now
    simp only [signalling, holds] at counted ⊢
    omega
  | wait thread arrived =>
    simp only [QueueThreads.step, Option.ite_none_right_eq_some] at taken
    obtain ⟨_, taken⟩ := taken
    cases arrived with
    | false =>
      obtain rfl := Option.some.inj taken
      exact ⟨⟨counted, neverEmpty⟩, nothingToClear⟩
    | true =>
      simp only [if_true, Option.ite_none_right_eq_some] at taken
      obtain ⟨posted, taken⟩ := taken
      obtain rfl := Option.some.inj taken
      -- a permit is exchanged for a thread that will pop
      refine ⟨⟨?_, neverEmpty⟩, nothingToClear⟩
      simp only [signalling, List.length_cons] at counted ⊢
      omega
  | pop thread =>
    simp only [QueueThreads.step, Option.ite_none_right_eq_some] at taken
    obtain ⟨⟨member, free⟩, taken⟩ := taken
    have erased := List.length_erase_of_mem member
    have some_waited := List.length_pos_of_mem member
    simp only [signalling, free, Nat.add_zero] at counted
    cases atTop : threads.queue.top? with
    | none =>
      -- A getter has waited, so an element is there.
      have size := congrArg List.length (elements_eq_nil_iff.mpr atTop)
      rw [List.length_nil] at size
      omega
    | some elem =>
      simp only [atTop] at taken
      obtain rfl := Option.some.inj taken
      -- an element less, and a thread less that has waited
      have popped := (PriorityQueue.top_cons_pop_perm less atTop).length_eq
      rw [List.length_cons] at popped
      refine ⟨⟨?_, neverEmpty⟩, fun _ clearing => by simp [free] at clearing⟩
      simp only [signalling, free]
      omega
  | clear thread =>
    simp only [QueueThreads.step, Option.ite_none_right_eq_some] at taken
    obtain ⟨⟨_, free⟩, taken⟩ := taken
    obtain rfl := Option.some.inj taken
    refine ⟨⟨?_, neverEmpty⟩, fun _ _ => condition⟩
    simpa [signalling, free] using counted
  | clearPass thread =>
    simp only [QueueThreads.step, Option.ite_none_right_eq_some] at taken
    obtain ⟨holds, taken⟩ := taken
    simp only [elements_eq_nil_iff.mp (nothingToClear thread holds)] at taken
    obtain rfl := Option.some.inj taken
    refine ⟨⟨?_, neverEmpty⟩, fun _ clearing => by simp at clearing⟩
    simpa [signalling, holds] using counted
  | size thread =>
    simp only [QueueThreads.step, Option.ite_none_right_eq_some] at taken
    obtain rfl := Option.some.inj taken.2
    exact ⟨⟨counted, neverEmpty⟩, nothingToClear⟩

/-- A `clear` that finds an element takes it and leaves its signal behind. -/
theorem not_inStep_of_cleared {threads after : QueueThreads ElemType} {thread : Nat} (inStep : InStep threads)
    (elements : threads.queue.elements ≠ []) (taken : threads.step less (.clearPass thread) = some after) :
    ¬ InStep after := by
  intro inStepAfter
  simp only [QueueThreads.step, Option.ite_none_right_eq_some] at taken
  obtain ⟨_, taken⟩ := taken
  cases atTop : threads.queue.top? with
  | none => exact elements (elements_eq_nil_iff.mpr atTop)
  | some elem =>
    simp only [atTop] at taken
    obtain rfl := Option.some.inj taken
    have popped := (PriorityQueue.top_cons_pop_perm less atTop).length_eq
    have before := inStep.counted
    have counted := inStepAfter.counted
    rw [List.length_cons] at popped
    simp only [signalling] at before counted
    omega

/-! ## Runs -/

/-- In every run whose `clear`s begin on an empty queue the count of the semaphore and the getters past
their wait are the queued elements (while no `put` is between its push and its signal), no `get` finds
the container empty, and an element that is queued can be waited for. -/
theorem signals_match {actions : List (QueueThreadAction ElemType)} {threads : QueueThreads ElemType}
    (run : Run (Guarded ClearsEmpty (Steps (QueueThreads.step less))) {} actions threads) :
    InStep threads ∧
      (signalling threads = 0 → threads.psem + threads.waited.length = threads.queue.elements.length) ∧
      (signalling threads = 0 → threads.waited = [] → threads.queue.elements ≠ [] → 0 < threads.psem) := by
  have start : SignalInvariant ({} : QueueThreads ElemType) :=
    ⟨⟨rfl, rfl⟩, fun _ clearing => absurd clearing (by simp)⟩
  have invariant := run.invariant SignalInvariant
    (fun _ _ _ step invariant => signalInvariant_step invariant step.1 step.2) start
  have counted := invariant.inStep.counted
  refine ⟨invariant.inStep, fun settled => by omega, fun settled nobody elements => ?_⟩
  have size := List.length_pos_iff.mpr elements
  rw [nobody, List.length_nil] at counted
  omega

/-- Two sessions are put and one is got, while the time of another getter runs out; later the second is
got, and the queue is cleared. -/
def queueTrace : List (QueueThreadAction IvrSession) :=
  [.push 1 (customer "call-1" ivrNormail 1557230400) true, .size 3, .signal 1, .wait 2 true,
   .push 1 (customer "call-2" ivrNormail 1557230403) true, .wait 4 false, .signal 1, .pop 2, .wait 4 true,
     .pop 4,
   .clear 3, .clearPass 3]

theorem signals_match_trace : InStep (finish (QueueThreads.step IvrSession.less) {} queueTrace) :=
  (signals_match (guardedRun_finish (by decide +kernel))).1

/-- What is asked of the queue: its semaphore and its container are in step in every run. -/
def AlwaysInStep : Prop :=
  ∀ (actions : List (QueueThreadAction IvrSession)) (threads : QueueThreads IvrSession),
    Run (Steps (QueueThreads.step IvrSession.less)) {} actions threads → InStep threads

/-- A session is put and cleared away; the next `get` passes its wait and finds nothing. -/
def clearedTrace : List (QueueThreadAction IvrSession) :=
  [.push 1 (customer "call-1" ivrNormail 1557230400) true, .signal 1, .clear 2, .clearPass 2, .clearPass 2,
   .wait 3 true, .pop 3]

theorem cleared_signal_left : ¬ AlwaysInStep := by
  intro always
  have inStep := always clearedTrace _ (run_finish (by decide +kernel))
  have neverEmpty := inStep.neverEmpty
  revert neverEmpty
  decide +kernel

/-! ## The ACD queue

Where no thread is inside an operation the threads leave an `AcdQueue`, and what a thread does in two
steps is one operation of it. -/

section Settled

variable {threads : QueueThreads IvrSession} (inStep : InStep threads) (free : threads.mutex = none)
  (nobody : threads.waited = [])

/-- The ACD queue between operations. -/
def settledQueue : AcdQueue where
  psem := threads.psem
  queue := threads.queue
  counted := by
    have counted := inStep.counted
    simp only [signalling, free, nobody, List.length_nil] at counted
    omega

include free nobody in
theorem busy_settled (thread : Nat) : threads.busy thread = false := by
  simp [QueueThreads.busy, free, nobody]

theorem put_settled (thread : Nat) (elem : IvrSession) :
    execute (QueueThreads.step IvrSession.less) threads [.push thread elem true, .signal thread] =
      some { threads with
        psem := ((settledQueue inStep free nobody).put elem).psem
        queue := ((settledQueue inStep free nobody).put elem).queue } := by
  simp [execute, QueueThreads.step, busy_settled free nobody, free, AcdQueue.put, settledQueue]

theorem get_settled (thread : Nat) {elem : IvrSession} {rest : AcdQueue}
    (got : (settledQueue inStep free nobody).get = some (elem, rest)) :
    execute (QueueThreads.step IvrSession.less) threads [.wait thread true, .pop thread] =
      some { threads with psem := rest.psem, queue := rest.queue } := by
  obtain ⟨atTop, popped⟩ := InOrder.top_of_get got
  have posted : 0 < threads.psem := by
    have present := List.length_pos_of_mem (PriorityQueue.top?_mem atTop)
    have counted := (settledQueue inStep free nobody).counted
    show 0 < (settledQueue inStep free nobody).psem
    omega
  have psem : rest.psem = threads.psem - 1 := by
    have count := (AcdQueue.elements_get got).length_eq
    have restCounted := rest.counted
    have counted := (settledQueue inStep free nobody).counted
    rw [List.length_cons] at count
    simp only [AcdQueue.elements] at count
    show rest.psem = (settledQueue inStep free nobody).psem - 1
    omega
  replace atTop : threads.queue.top? = some elem := atTop
  simp [execute, QueueThreads.step, busy_settled free nobody, free, nobody, posted, atTop, psem, popped,
    settledQueue]

end Settled

end CallCenter.Verified
