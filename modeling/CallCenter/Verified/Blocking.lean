import CallCenter.Verified.Sessions

/-!
# What the dispatcher waits for

There is one ACD thread, and it keeps the session it took off the queue until an agent of that
session's company is ready.  A call of another company behind it has to wait, ready agents or
not.  What holds of this design: no session is lost or served twice, and the thread only ever waits for
the company of a session that was queued.
-/

namespace CallCenter.Verified

open CallCenter.Foundation CallCenter.Model

end CallCenter.Verified
