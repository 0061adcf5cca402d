import CallCenter.Model.Reload

/-!
# Call-out tasks

`CallTask` of `CalloutManager.cpp`.  Its `run` is a thread: one step here is one pass through
the loop, or one of the two halves of the branch that waits on `m_calloutsema`.
-/

namespace CallCenter.Model

open CallCenter.Foundation

/-- Where the thread of a task stands. -/
inductive TaskStand where
  | start
  | loop
  | waiting
  | recount
  | finish
  deriving DecidableEq, Repr

/-- One originate command: the row it was built from, its text, and the channel FreeSWITCH opens
for it. -/
structure Originated where
  row : OutcallInfo
  callCmd : String
  channel : String
  deriving DecidableEq, Repr

/-- `CallTask`, with the locals of its `run`.  `m_rate` is a float that only ever holds ints. -/
structure CallTask where
  taskId : String
  companyId : String
  rate : Int := 1
  outcallInfo : List OutcallInfo := []
  ite : Nat := 0
  num : Int := 0
  stand : TaskStand := .start
  originated : List Originated := []
  deriving DecidableEq, Repr

/-- `GetOutcalllist`: every row of the table, for every task. -/
def getOutcalllist (answer : Answer OutcallInfo) (phonelist : List OutcallInfo) : List OutcallInfo :=
  phonelist ++ answer.rows

/-- The text of the originate command. -/
def callCmd (prefixNumber : String) (row : OutcallInfo) : String :=
  "bgapi originate \x7bignore_early_media=true,company_id=" ++ toString row.companyId ++ ",taskID=" ++
    cStr row.taskId ++ "\x7dsofia/gateway/reingw/" ++ cStr prefixNumber ++ cStr row.phone ++ " &park()"

namespace CallTask

/-- The company whose ready agents the task counts. -/
def company (task : CallTask) : Int := atoi task.companyId

/-- `GetCallList`, and the first count of ready agents. -/
def begin (answer : Answer OutcallInfo) (waitingDN : Nat) (task : CallTask) : CallTask :=
  { task with
    outcallInfo := getOutcalllist answer task.outcallInfo
    ite := 0
    num := waitingDN
    stand := .loop }

/-- One pass through the loop: the end of the list, the pause, or the next originate command. -/
def pass (prefixNumber channel : String) (task : CallTask) : CallTask :=
  match task.outcallInfo[task.ite]? with
  | none => { task with stand := .finish }
  | some row =>
    if task.num ≤ 0 then
      { task with stand := .waiting }
    else
      { task with
        num := task.num - 1
        ite := task.ite + 1
        originated := task.originated ++ [{ row, callCmd := callCmd prefixNumber row, channel }] }

/-- After the wait the budget is counted anew. -/
def countAgain (waitingDN : Nat) (task : CallTask) : CallTask :=
  { task with num := waitingDN * task.rate, stand := .loop }

end CallTask

/-- The branch `SetCallrate` of `OnMsg`. -/
def setCallrate (taskid : String) (rate : Int) (tasklist : List CallTask) : List CallTask :=
  tasklist.map fun task => if task.taskId = taskid then { task with rate } else task

/-- The branch `CreateTask` of `OnMsg`. -/
def createTask (taskid companyid : String) (tasklist : List CallTask) : List CallTask :=
  tasklist ++ [{ taskId := taskid, companyId := companyid }]

end CallCenter.Model
