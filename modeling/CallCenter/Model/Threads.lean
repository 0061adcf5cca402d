import CallCenter.Foundation.Runs
import CallCenter.Model.Callout
import CallCenter.Model.ProcessEvent

/-!
# The threads, statement by statement

The steps of `System` are whole operations.  Here the operations that make agents ready, the
pickers of the ACD thread and the call-out tasks take one statement at a time, so that they
interleave between the store of a status, the signal that announces it, and the scan that looks
for it.
-/

namespace CallCenter.Model

open Std (ExtTreeMap)
open CallCenter.Foundation

/-! ## Operations on agents -/

/-- The statements that follow the lookup of an operation in `m_DNmap`. -/
inductive Statement where
  | setDNsemaSignal
  | setcalloutsemafree
  /-- `m_DNmap.insert(...)`, which leaves an entry that is there alone. -/
  | insert (strdn : String) (user : DNuser)
  /-- `m_DNmap[strdn]`. -/
  | subscript (strdn : String) (ambient : Ambient)
  /-- `m_agentstatus = agentStatus`, through a reference into the map. -/
  | store (strdn : String) (agentStatus : Int)
  | department (strdn : String) (departmentId : Int) (departmentName userName : String)
  /-- `m_callminiutes += ...` and `m_calltimes++`. -/
  | countCall (strdn billsec : String)
  | insertTable (user : DNuser)
  | changestate (strdn : String) (ambient : Ambient)
  | deleteTable (strdn : String) (ambient : Ambient)
  /-- `m_DNmap.erase(strdn)`. -/
  | erase (strdn : String)

namespace Statement

def execute (lib : Libraries) (manager : ManagerDN) : Statement → ManagerDN
  | setDNsemaSignal => manager.setDNsemaSignal
  | setcalloutsemafree => manager.setcalloutsemafree
  | insert strdn user => { manager with dnMap := manager.dnMap.insertIfNew strdn user }
  | subscript strdn ambient => manager.updateDN strdn ambient id
  | store strdn agentStatus =>
    { manager with dnMap := manager.dnMap.modify strdn (DNuser.setagnetStatus agentStatus) }
  | department strdn departmentId departmentName userName =>
    { manager with
      dnMap := manager.dnMap.modify strdn fun user =>
        { user with departmentId := .assign departmentId, departmentName, userName } }
  | countCall strdn billsec =>
    { manager with dnMap := manager.dnMap.modify strdn (DNuser.countCall billsec) }
  | insertTable user => { manager with presisted := (Model.insertTable lib user manager.presisted).2 }
  | changestate strdn ambient => manager.changestate lib strdn ambient
  | deleteTable strdn ambient =>
    { manager with
      presisted := (Model.deleteTable lib (manager.dnMap[strdn]?.getD (.default ambient)) manager.presisted).2 }
  | erase strdn => { manager with dnMap := manager.dnMap.erase strdn }

/-- `if(agentStatus==DN_Waiting_ready) SetDNsemaSignal();` -/
def signalIfReady (agentStatus : Int) : List Statement :=
  if agentStatus = AgentStatus.waitingReady.code then [setDNsemaSignal] else []

/-- `SetagnetStatus`. -/
def setagnetStatus (strdn : String) (agentStatus : Int) : List Statement :=
  store strdn agentStatus :: signalIfReady agentStatus

def isSignal : Statement → Bool
  | setDNsemaSignal => true
  | _ => false

/-- The agent whose status the statement writes. -/
def target : Statement → Option String
  | store strdn _ => some strdn
  | _ => none

end Statement

/-- The operations that run beside the ACD thread and the tasks; of a reload, the table the sign-ins read. -/
inductive Request where
  | signin (request : SigninRequest) (ambient : Ambient)
  | signout (agentId : String) (ambient : Ambient)
  | setDNstatus (agentId : String) (agentStatus : Int) (ambient : Ambient)
  | resetDNinfo (agentid : String) (departmentId : Int) (departmentName userName : String) (ambient : Ambient)
  | channelAnswer (event : Event) (ambient : Ambient)
  | channelDestroy (event : Event) (ambient : Ambient)
  | reloaddb (vRoute : List Route)

namespace Request

/-- What happens before the lookup. -/
def opening (manager : ManagerDN) : Request → ManagerDN
  | channelAnswer event ambient =>
    (manager.answerTask event ambient).updateCallInfo event.uuid fun info => { info with callstate := "1" }
  | channelDestroy event ambient => manager.closeCallInfo event ambient
  | reloaddb vRoute => { manager with gRoute := vRoute }
  | _ => manager

/-- The statements the lookup leads to. -/
def statements (manager : ManagerDN) : Request → List Statement
  | signin request ambient =>
    if manager.checkvaildDN request.agentDn then
      match manager.dnMap[request.agentDn]? with
      | none =>
        let user := (DNuser.construct request ambient).inlineSetcompanyid
          (atoi (manager.getcompanyidbyDN request.agentDn))
        Statement.signalIfReady request.statusChangetype ++ [.insert request.agentDn user, .insertTable user]
      | some _ =>
        [.subscript request.agentDn ambient, .store request.agentDn AgentStatus.waitingReady.code]
    else []
  | signout agentId ambient =>
    let strDN := manager.getDNbyagentid agentId
    if strDN ≠ "" then [.subscript strDN ambient, .deleteTable strDN ambient, .erase strDN] else []
  | setDNstatus agentId agentStatus ambient =>
    let strdn := manager.getDNbyagentid agentId
    if strdn ≠ "" then
      .subscript strdn ambient :: Statement.setagnetStatus strdn agentStatus ++ [.changestate strdn ambient]
    else []
  | resetDNinfo agentid departmentId departmentName userName ambient =>
    if agentid ∈ manager.dnMap then
      [.subscript agentid ambient, .department agentid departmentId departmentName userName,
        .store agentid AgentStatus.waitingReady.code]
    else []
  | channelAnswer event _ =>
    if event.destinationNumber ∈ manager.dnMap then
      Statement.setagnetStatus event.destinationNumber AgentStatus.talking.code
    else []
  | channelDestroy event _ =>
    if event.destinationNumber ∈ manager.dnMap then
      Statement.setagnetStatus event.destinationNumber AgentStatus.waitingReady.code ++
        [.setDNsemaSignal, .setcalloutsemafree,
          .countCall event.destinationNumber (headerOrEmpty event "variable_duration")]
    else []
  | reloaddb _ => []

/-- The signed-in agent whose call the request ends. -/
def releases (manager : ManagerDN) : Request → Option String
  | channelDestroy event _ =>
    if event.destinationNumber ∈ manager.dnMap then some event.destinationNumber else none
  | _ => none

/-- The operation as one step, as `System` takes it. -/
def whole (lib : Libraries) (manager : ManagerDN) : Request → ManagerDN
  | signin request ambient => (manager.signin lib request ambient).2
  | signout agentId ambient => (manager.signout lib agentId ambient).2
  | setDNstatus agentId agentStatus ambient => (manager.setDNstatus lib agentId agentStatus ambient).2
  | resetDNinfo agentid departmentId departmentName userName ambient =>
    (manager.resetDNinfo agentid departmentId departmentName userName ambient).2
  | channelAnswer event ambient => manager.onAnswer event ambient
  | channelDestroy event ambient => manager.onDestroy event ambient
  | reloaddb vRoute => { manager with gRoute := vRoute }

end Request

/-- An operation with what it has executed and what it has still to execute, and the signed-in agent
whose call it ends. -/
structure Operation where
  request : Request
  releases : Option String
  executed : List Statement := []
  statements : List Statement

namespace Operation

/-- The statement is executed, and the rest is left. -/
def advance (statement : Statement) (rest : List Statement) (operation : Operation) : Operation :=
  { operation with executed := operation.executed ++ [statement], statements := rest }

/-- The agent that the end of a call has made ready with its store: the entry is ready after it. -/
def readies (statement : Statement) (manager : ManagerDN) (operation : Operation) : Option String :=
  statement.target.filter fun dn =>
    operation.releases.isSome &&
      manager.dnMap[dn]?.any fun user => user.agentstatus.value == AgentStatus.waitingReady.code

end Operation

/-! ## The ACD thread -/

/-- What a comparing picker starts from. -/
def Picker.start : Picker → Int
  | robin => 0
  | idelAgent => 0
  | leastTalkTime => 999999
  | fewestCalls => 999999

/-- The comparison of a picker. -/
def Picker.improves (now : Int) : Picker → Int → DNuser → Bool
  | robin, _, _ => false
  | idelAgent, best, user => best < user.getidelminiute now
  | leastTalkTime, best, user => best > user.callminiutes.value
  | fewestCalls, best, user => best > user.calltimes.value

/-- What a picker remembers. -/
def Picker.measure (now : Int) : Picker → DNuser → Int
  | robin, _ => 0
  | idelAgent, user => user.getidelminiute now
  | leastTalkTime, user => user.idelminiutes.value
  | fewestCalls, user => user.idelminiutes.value

/-- Where the body of a loop over the agents stands: at the test of the company, at the test of the
status, at the comparison, at the assignments under it, or at `ite++`. -/
inductive ScanPoint where
  | company
  | status
  | compare
  | remember
  | advance
  deriving DecidableEq, Repr

/-- A picker in its loop over the agents; at the end of the map `ite` is `none`. -/
structure Scan where
  picker : Picker
  companyid : Int
  ite : Option String
  point : ScanPoint := .company
  choice : Choice

/-- Where the ACD thread stands. -/
inductive AcdStand where
  | idle
  | scanning (scan : Scan)
  | waiting (picker : Picker) (companyid : Int)
  | returned (dn : String)

namespace Scan

def start (picker : Picker) (companyid : Int) (manager : ManagerDN) : Scan :=
  { picker, companyid, ite := OrderedMap.begin? manager.dnMap, choice := { maxidelminiute := picker.start } }

/-- One statement of a picker. -/
def step (ambient : Ambient) (manager : ManagerDN) (scan : Scan) : Option AcdStand :=
  match scan.ite with
  | none =>
    some (if scan.choice.isFind then .returned scan.choice.dn else .waiting scan.picker scan.companyid)
  | some dn =>
    manager.dnMap[dn]?.map fun user =>
      match scan.point with
      | .company =>
        .scanning { scan with point := if scan.companyid = user.commpanyid.value then .status else .advance }
      | .status =>
        if user.agentstatus.value = AgentStatus.waitingReady.code then
          if scan.picker = .robin then .returned dn
          else .scanning { scan with point := .compare, choice := { scan.choice with isFind := true } }
        else .scanning { scan with point := .advance }
      | .compare =>
        .scanning { scan with
          point := if scan.picker.improves ambient.now scan.choice.maxidelminiute user then .remember
                   else .advance }
      | .remember =>
        .scanning { scan with
          point := .advance
          choice := { scan.choice with maxidelminiute := scan.picker.measure ambient.now user, dn } }
      | .advance => .scanning { scan with ite := OrderedMap.next? manager.dnMap dn, point := .company }

end Scan

/-! ## Tasks -/

/-- `GetWaitingDN` in its loop over the agents. -/
structure Count where
  companyid : Int
  ite : Option String
  point : ScanPoint := .company
  num : Nat := 0

namespace Count

def start (companyid : Int) (manager : ManagerDN) : Count :=
  { companyid, ite := OrderedMap.begin? manager.dnMap }

/-- One statement of the loop body at an agent. -/
def step (manager : ManagerDN) (dn : String) (user : DNuser) (count : Count) : Count :=
  match count.point with
  | .company => { count with point := if count.companyid = user.commpanyid.value then .status else .advance }
  | .status =>
    { count with
      point := .advance
      num := if user.agentstatus.value = AgentStatus.waitingReady.code then count.num + 1 else count.num }
  | _ => { count with ite := OrderedMap.next? manager.dnMap dn, point := .company }

end Count

/-- A task, and `GetWaitingDN` while the task is in it.  `missed` are the agents that the end of a
call has made ready since the task last began to count. -/
structure CallThread where
  task : CallTask
  count : Option Count := none
  missed : List String := []

namespace CallThread

/-- The task calls `GetWaitingDN`. -/
def beginCount (manager : ManagerDN) (task : CallTask) : CallThread :=
  { task, count := some (.start task.company manager) }

/-- `GetWaitingDN` returns to where the task called it. -/
def endCount (num : Nat) (thread : CallThread) : CallThread :=
  { thread with
    task := if thread.task.stand = .start then { thread.task with num, stand := .loop }
            else thread.task.countAgain num
    count := none }

/-- One statement of a task that is not waiting. -/
def step (answer : Answer OutcallInfo) (channel : String) (manager : ManagerDN) (thread : CallThread) :
    Option CallThread :=
  match thread.count with
  | some count =>
    match count.ite with
    | none => some (thread.endCount count.num)
    | some dn => manager.dnMap[dn]?.map fun user => { thread with count := some (count.step manager dn user) }
  | none =>
    match thread.task.stand with
    | .start =>
      some (beginCount manager { thread.task with
        outcallInfo := getOutcalllist answer thread.task.outcallInfo
        ite := 0 })
    | .loop => some { thread with task := thread.task.pass manager.prefixNumber channel }
    | .recount => some (beginCount manager thread.task)
    | .waiting => none
    | .finish => none

/-- The task stands in `Waitcalloutsema`. -/
def blocked (thread : CallThread) : Bool := thread.count.isNone && thread.task.stand == .waiting

end CallThread

/-! ## All threads -/

/-- What the properties speak about and no thread reads: the agents that the end of a call has made
ready since a task was last woken, that task, and how often a task was woken. -/
structure WakeHistory where
  unheard : List String := []
  lastWoken : Option Nat := none
  woken : Nat := 0

/-- The threads; an operation that has completed stays, with nothing left. -/
structure Threads where
  manager : ManagerDN
  acd : AcdStand := .idle
  operations : List Operation := []
  calls : List CallThread := []
  history : WakeHistory := {}

inductive ThreadAction where
  | begin (request : Request)
  | execute (index : Nat)
  | getavailableAgent (picker : Picker) (companyid : Int)
  | acd (ambient : Ambient)
  | task (index : Nat) (answer : Answer OutcallInfo) (channel : String)
  | wake (index : Nat)

namespace Threads

/-- Tasks that start beside each other; the ACD thread serves no call yet, and no operation runs. -/
def initial (manager : ManagerDN) (tasks : List CallTask) : Threads :=
  { manager, calls := tasks.map fun task => { task } }

/-- An operation starts, up to its lookup. -/
def begin (request : Request) (threads : Threads) : Threads :=
  { threads with
    manager := request.opening threads.manager
    operations := threads.operations ++
      [{ request
         releases := request.releases threads.manager
         statements := request.statements threads.manager }] }

/-- The end of a call makes an agent ready: every task misses it until it counts again. -/
def release (dn : String) (threads : Threads) : Threads :=
  { threads with
    calls := threads.calls.map fun thread => { thread with missed := thread.missed ++ [dn] }
    history := { threads.history with unheard := threads.history.unheard ++ [dn] } }

/-- The statement was executed for the operation. -/
def record (operation : Operation) (statement : Statement) (threads : Threads) : Threads :=
  match operation.readies statement threads.manager with
  | some dn => threads.release dn
  | none => threads

/-- The step an action takes; `none` where its thread stands elsewhere or must wait. -/
def step (lib : Libraries) (threads : Threads) : ThreadAction → Option Threads
  | .begin request => some (threads.begin request)
  | .execute index =>
    match threads.operations[index]? with
    | some operation =>
      match operation.statements with
      | statement :: rest =>
        some (({ threads with
          manager := statement.execute lib threads.manager
          operations := threads.operations.set index (operation.advance statement rest) } : Threads).record
            operation statement)
      | [] => none
    | none => none
  | .getavailableAgent picker companyid =>
    match threads.acd with
    | .idle => some { threads with acd := .scanning (.start picker companyid threads.manager) }
    | _ => none
  | .acd ambient =>
    match threads.acd with
    | .idle => none
    | .scanning scan => (scan.step ambient threads.manager).map fun acd => { threads with acd }
    | .waiting picker companyid =>
      if 0 < threads.manager.readyDNsema then
        let manager := { threads.manager with readyDNsema := threads.manager.readyDNsema - 1 }
        some { threads with manager, acd := .scanning (.start picker companyid manager) }
      else none
    | .returned dn =>
      some { threads with
        manager := threads.manager.setagnetStatus dn AgentStatus.ringing.code ambient
        acd := .idle }
  | .task index answer channel =>
    match threads.calls[index]? with
    | some thread =>
      (thread.step answer channel threads.manager).map fun moved =>
        { threads with calls := threads.calls.set index moved }
    | none => none
  | .wake index =>
    match threads.calls[index]? with
    | some thread =>
      if thread.blocked = true ∧ 0 < threads.manager.calloutsema then
        some { threads with
          manager := { threads.manager with calloutsema := threads.manager.calloutsema - 1 }
          calls := threads.calls.set index { thread with task := { thread.task with stand := .recount } }
          history := { threads.history with
            unheard := []
            lastWoken := some index
            woken := threads.history.woken + 1 } }
      else none
    | none => none

/-- The operations have completed. -/
def completed (threads : Threads) : Bool := threads.operations.all fun operation => operation.statements.isEmpty

end Threads

end CallCenter.Model
