import CallCenter.Verified.WakeUps

/-!
# Wake-ups of the tasks

All tasks wait on one semaphore, and only the end of a call to a signed-in agent posts it: once, after
the store that makes the agent ready.  No such post is lost: each wakes one task, which then counts
again.  Which task that is, the code leaves open, and an agent a task has counted already
stays ready while the task waits.
-/

namespace CallCenter.Verified

open Std (ExtTreeMap)
open CallCenter.Foundation CallCenter.Model

end CallCenter.Verified
