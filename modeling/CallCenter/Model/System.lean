import CallCenter.Foundation.Runs
import CallCenter.Model.Callout
import CallCenter.Model.ProcessEvent

/-!
# The running system

The threads of the program side by side: the event thread, the callbacks of incoming calls, the
ACD thread, the call-out tasks, and the requests of the agents.  A step is one operation of one
of them, and the actions come in any order; a scan that finds nobody and the wait behind it are one
step, which `Threads` takes apart.  An operation that ends the process has no step.
`History` records what the properties speak about and no operation reads.
-/

namespace CallCenter.Model

open CallCenter.Foundation

/-- Where `ACDqueue::run` stands: in `get`, before the first scan of `GetavailableAgent`, in
`m_readyDNsema.wait()`, or between `GetavailableAgent` and `inline_TransformAgent`. -/
inductive AcdThread where
  | idle
  | serving (session : IvrSession)
  | waiting (session : IvrSession) (picker : Picker)
  | selected (session : IvrSession) (dn : String)
  deriving DecidableEq

/-- The session the thread has taken off the queue. -/
def AcdThread.inService : AcdThread → List IvrSession
  | idle => []
  | serving session => [session]
  | waiting session _ => [session]
  | selected session _ => [session]

structure History where
  /-- The extensions a `Signin` put into `m_DNmap`. -/
  signedIn : List String := []
  /-- The agents and calls `inline_TransformAgent` bridged. -/
  bridged : List (String × String) := []
  /-- The calls whose `CHANNEL_DESTROY` was processed. -/
  destroyed : List String := []
  /-- The sessions `inline_TransformAgent` was given. -/
  dispatched : List IvrSession := []

structure System where
  manager : ManagerDN := {}
  acd : AcdThread := .idle
  /-- The callbacks that still have to release their handle. -/
  closing : List Nat := []
  tasks : List CallTask := []
  history : History := {}

inductive Action where
  | signin (request : SigninRequest) (ambient : Ambient)
  | signout (agentId : String) (ambient : Ambient)
  | setDNstatus (agentId : String) (agentStatus : Int) (ambient : Ambient)
  | resetDNinfo (agentid : String) (departmentId : Int) (departmentName userName : String) (ambient : Ambient)
  | reloaddb (answers : DatabaseAnswers)
  | loadDNSet (opened : Bool) (ambient : Ambient)
  | event (event : Event) (ambient : Ambient)
  | incoming (incoming : Incoming) (ambient : Ambient)
  | release (handle : Nat)
  | acdGet
  | acdScan (ambient : Ambient)
  | acdWake (ambient : Ambient)
  | acdDispatch (bridged : Bool) (ambient : Ambient)
  | createTask (taskid companyid : String)
  | setCallrate (taskid : String) (rate : Int)
  | taskBegin (index : Nat) (answer : Answer OutcallInfo)
  | taskPass (index : Nat) (channel : String)
  | taskWake (index : Nat)
  | taskRecount (index : Nat)

namespace System

/-- The process at its start, with what earlier runs left in `data.db`.  What `loaddb` does then is
a `reloaddb` on empty maps and a `loadDNSet`. -/
def initial (presisted : DnuserTable) (prefixNumber : String) : System :=
  { manager := { presisted, prefixNumber } }

/-- The ACD thread after one pass of its picker. -/
def afterPass (session : IvrSession) (picker : Picker) (ambient : Ambient) (manager : ManagerDN) : AcdThread :=
  match manager.pick picker session.companyid ambient with
  | some dn => .selected session dn
  | none => .waiting session picker

/-- `GetavailableAgent` from its start to the end of the first scan. -/
def firstScan (session : IvrSession) (ambient : Ambient) (system : System) : System :=
  let manager := system.manager.adoptRule session.companyid
  { system with
    manager
    acd :=
      match Picker.ofRule manager.dnChooseRule with
      | some picker => afterPass session picker ambient manager
      | none => .selected session "" }

/-- `inline_TransformAgent`; `bridged` is whether the bridge command succeeded. -/
def dispatch (lib : Libraries) (session : IvrSession) (dn : String) (bridged : Bool) (ambient : Ambient)
    (system : System) : System :=
  { system with
    manager := system.manager.inlineTransformAgent lib dn session ambient
    acd := .idle
    history := { system.history with
      bridged := if bridged then system.history.bridged ++ [(dn, session.uuid)] else system.history.bridged
      dispatched := system.history.dispatched ++ [session] } }

/-- One task changed. -/
def updateTask (index : Nat) (change : CallTask → CallTask) (system : System) : System :=
  { system with tasks := system.tasks.modify index change }

/-- A task that stands where the action needs it. -/
def taskAt (index : Nat) (stand : TaskStand) (system : System) : Option CallTask :=
  system.tasks[index]?.filter fun task => task.stand = stand

def recordEvent (event : Event) (history : History) : History :=
  if event.eventId = .channelDestroy then { history with destroyed := history.destroyed ++ [event.uuid] }
  else history

def recordSignin (request : SigninRequest) (status : ReturnStatus) (history : History) : History :=
  if status = .operatorSuccessed then { history with signedIn := history.signedIn ++ [request.agentDn] }
  else history

/-- The step an action takes; `none` where its thread stands elsewhere, must wait, or ends the process. -/
def step (lib : Libraries) (system : System) : Action → Option System
  | .signin request ambient =>
    let (status, manager) := system.manager.signin lib request ambient
    some { system with manager, history := recordSignin request status system.history }
  | .signout agentId ambient =>
    some { system with manager := (system.manager.signout lib agentId ambient).2 }
  | .setDNstatus agentId agentStatus ambient =>
    some { system with manager := (system.manager.setDNstatus lib agentId agentStatus ambient).2 }
  | .resetDNinfo agentid departmentId departmentName userName ambient =>
    some { system with
      manager := (system.manager.resetDNinfo agentid departmentId departmentName userName ambient).2 }
  | .reloaddb answers =>
    (system.manager.reloaddb lib answers).toOption.map fun manager => { system with manager }
  | .loadDNSet opened ambient =>
    (system.manager.loadDNSet lib opened ambient).toOption.map fun manager => { system with manager }
  | .event event ambient =>
    (system.manager.processEvent event ambient).toOption.map fun manager =>
      { system with manager, history := recordEvent event system.history }
  | .incoming incoming ambient =>
    (system.manager.nwayccCallback incoming ambient).toOption.map fun (open?, manager) =>
      { system with manager, closing := system.closing ++ open?.toList }
  | .release handle =>
    if handle ∈ system.closing then
      some { system with
        manager := system.manager.deleteHandle handle
        closing := system.closing.erase handle }
    else none
  | .acdGet =>
    match system.acd with
    | .idle =>
      system.manager.acdqueue.get.map fun (session, acdqueue) =>
        { system with manager := { system.manager with acdqueue }, acd := .serving session }
    | _ => none
  | .acdScan ambient =>
    match system.acd with
    | .serving session => some (system.firstScan session ambient)
    | _ => none
  | .acdWake ambient =>
    match system.acd with
    | .waiting session picker =>
      if 0 < system.manager.readyDNsema then
        let manager := { system.manager with readyDNsema := system.manager.readyDNsema - 1 }
        some { system with manager, acd := afterPass session picker ambient manager }
      else none
    | _ => none
  | .acdDispatch bridged ambient =>
    match system.acd with
    | .selected session dn => some (system.dispatch lib session dn bridged ambient)
    | _ => none
  | .createTask taskid companyid =>
    some { system with tasks := Model.createTask taskid companyid system.tasks }
  | .setCallrate taskid rate =>
    some { system with tasks := Model.setCallrate taskid rate system.tasks }
  | .taskBegin index answer =>
    (system.taskAt index .start).map fun task =>
      system.updateTask index (CallTask.begin answer (system.manager.getWaitingDN task.company))
  | .taskPass index channel =>
    (system.taskAt index .loop).map fun _ =>
      system.updateTask index (CallTask.pass system.manager.prefixNumber channel)
  | .taskWake index =>
    match system.taskAt index .waiting with
    | some _ =>
      if 0 < system.manager.calloutsema then
        some { system.updateTask index fun task => { task with stand := .recount } with
          manager := { system.manager with calloutsema := system.manager.calloutsema - 1 } }
      else none
    | none => none
  | .taskRecount index =>
    (system.taskAt index .recount).map fun task =>
      system.updateTask index (CallTask.countAgain (system.manager.getWaitingDN task.company))

/-! ## Restarts -/

/-- The next process: `main` calls `loaddb` once, and finds what this one left in `data.db`. -/
def restart (lib : Libraries) (answers : DatabaseAnswers) (opened : Bool) (ambient : Ambient)
    (system : System) : Option System :=
  (ManagerDN.loaddb lib answers opened ambient
    { presisted := system.manager.presisted, prefixNumber := system.manager.prefixNumber }).toOption.map
      fun manager => { manager }

end System

/-- An operation of the running process, or its end and the start of the next one. -/
inductive Happening where
  | operation (action : Action)
  | restart (answers : DatabaseAnswers) (opened : Bool) (ambient : Ambient)

/-- What happens to the program over the processes it runs in. -/
def System.live (lib : Libraries) (system : System) : Happening → Option System
  | .operation action => system.step lib action
  | .restart answers opened ambient => system.restart lib answers opened ambient

end CallCenter.Model
