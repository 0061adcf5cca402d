import CallCenter.Model.System

/-!
# A round of the ACD thread

The body of `ACDqueue::run` with the code `get` returns.  In `System.step` the wait of `get` always
ends with a session; here it may fail.
-/

namespace CallCenter.Model

open CallCenter.Foundation

/-- `m_q.get(tvalue, INFINITE)` where the wait on `m_psem` returned `ret`: the code, what `tvalue` holds
afterwards and the queue.  `none` is a wait that does not end. -/
def AcdQueue.getAfterWait (ret : Int) (tvalue : IvrSession) (q : AcdQueue) :
    Option (Int × IvrSession × AcdQueue) :=
  if ret = 0 then q.get.map fun (elem, rest) => (0, elem, rest)
  else some (-1, tvalue, q)

namespace System

/-- The start of a round: a session is constructed and given to `get`, whose code nobody looks at. -/
def acdStart (ret : Int) (ambient : Ambient) (system : System) : Option System :=
  match system.acd with
  | .idle =>
    (system.manager.acdqueue.getAfterWait ret (.construct ambient)).map fun (_, tvalue, acdqueue) =>
      { system with manager := { system.manager with acdqueue }, acd := .serving tvalue }
  | _ => none

/-- The rest of a round, among the steps of the other threads: what follows until the ACD thread is
back at the head of its loop. -/
def AcdRest (lib : Libraries) (started : System) (actions : List Action) (after : System) : Prop :=
  Run (Guarded (fun system _ => system.acd ≠ .idle) (Steps (System.step lib))) started actions after ∧
    after.acd = .idle

/-- A round of `ACDqueue::run` whose wait on `m_psem` returned `ret`. -/
structure AcdRound (lib : Libraries) (ret : Int) (ambient : Ambient) (before started : System)
    (actions : List Action) (after : System) : Prop where
  starts : before.acdStart ret ambient = some started
  ends : AcdRest lib started actions after

end System

end CallCenter.Model
