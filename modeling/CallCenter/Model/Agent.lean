import CallCenter.Foundation.Decimal
import CallCenter.Model.Json

/-!
# Agents and their persistent copies

`DNuser` and `SqlitePersist` of `DNManager.cpp`.
-/

namespace CallCenter.Model

open CallCenter.Foundation CallCenter.Foundation.Numerals

/-- `DNuser::DN_agentStatus`. -/
inductive AgentStatus where
  | noLogin
  | waitingReady
  | ringing
  | parking
  | talking
  | res1
  | process
  | res2
  | holding
  | held
  | dialing
  | dialUnderHold
  deriving DecidableEq, Repr

/-- The int that stands for a status. -/
def AgentStatus.code : AgentStatus → Int
  | noLogin => 0
  | waitingReady => 1
  | ringing => 2
  | parking => 3
  | talking => 4
  | res1 => 5
  | process => 6
  | res2 => 7
  | holding => 8
  | held => 9
  | dialing => 10
  | dialUnderHold => 11

/-- `DNuser`, without its WebSocket connection. -/
structure DNuser where
  commpanyid : Cell Int
  dn : String
  agentid : String
  reason : String
  agentstatus : Cell Int
  agentPwd : String
  autoAnswer : Cell Bool
  fcSignin : Cell Bool
  skills : String
  peerIP : String
  departmentId : Cell Int
  departmentName : String
  userName : String
  calltimes : Cell Int
  callminiutes : Cell Int
  idelminiutes : Cell Int
  deriving DecidableEq, Repr

/-- What a client sends to sign an agent in. -/
structure SigninRequest where
  agentId : String
  agentDn : String
  agentPwd : String
  statusChangetype : Int
  autoAnswer : Bool
  fcSignin : Bool
  skills : String
  departmentId : Int
  departmentName : String
  userName : String
  peerIP : String

namespace DNuser

/-- `DNuser()`: every built-in member keeps the value found in its storage. -/
def default (ambient : Ambient) : DNuser where
  commpanyid := .indeterminate (ambient.junk "m_commpanyid")
  dn := ""
  agentid := ""
  reason := ""
  agentstatus := .indeterminate (ambient.junk "m_agentstatus")
  agentPwd := ""
  autoAnswer := .indeterminate (ambient.junk "m_autoAnswer" != 0)
  fcSignin := .indeterminate (ambient.junk "m_fcSignin" != 0)
  skills := ""
  peerIP := ""
  departmentId := .indeterminate (ambient.junk "m_department_id")
  departmentName := ""
  userName := ""
  calltimes := .indeterminate (ambient.junk "m_calltimes")
  callminiutes := .indeterminate (ambient.junk "m_callminiutes")
  idelminiutes := .indeterminate (ambient.junk "m_idelminiutes")

/-- The constructor `Signin` uses; it leaves the company to `inline_Setcompanyid`. -/
def construct (request : SigninRequest) (ambient : Ambient) : DNuser where
  commpanyid := .indeterminate (ambient.junk "m_commpanyid")
  dn := request.agentDn
  agentid := request.agentId
  reason := ""
  agentstatus := .assign request.statusChangetype
  agentPwd := request.agentPwd
  autoAnswer := .assign request.autoAnswer
  fcSignin := .assign request.fcSignin
  skills := request.skills
  peerIP := request.peerIP
  departmentId := .assign request.departmentId
  departmentName := request.departmentName
  userName := request.userName
  calltimes := .assign 0
  callminiutes := .assign 0
  idelminiutes := .assign (toInt32 ambient.now)

def inlineSetcompanyid (companyid : Int) (user : DNuser) : DNuser :=
  { user with commpanyid := .assign companyid }

/-- The store of `SetagnetStatus`; its signal is on the manager's semaphore. -/
def setagnetStatus (agentStatus : Int) (user : DNuser) : DNuser :=
  { user with agentstatus := .assign agentStatus }

/-- `Getidelminiute`: the time since sign-in without the time on calls, as an `int`. -/
def getidelminiute (now : Int) (user : DNuser) : Int :=
  toInt32 (now - user.idelminiutes.value - user.callminiutes.value)

/-- `m_callminiutes += atoi(billsec)` and `m_calltimes++`. -/
def countCall (billsec : String) (user : DNuser) : DNuser :=
  { user with
    callminiutes := user.callminiutes.update fun minutes => toInt32 (minutes + atoi billsec)
    calltimes := user.calltimes.update fun times => toInt32 (times + 1) }

/-- The agent of a company that a picker may return. -/
def readyFor (companyid : Int) (user : DNuser) : Bool :=
  companyid == user.commpanyid.value && user.agentstatus.value == AgentStatus.waitingReady.code

def serialize (lib : Libraries) (user : DNuser) : String :=
  lib.toStyledString <| .ofMembers
    [("commpanyid", .int user.commpanyid.value), ("DN", .string user.dn),
     ("agentid", .string user.agentid), ("reason", .string user.reason),
     ("agentstatus", .int user.agentstatus.value), ("agentPwd", .string user.agentPwd),
     ("autoAnswer", .bool user.autoAnswer.value), ("fcSignin", .bool user.fcSignin.value),
     ("skills", .string user.skills), ("peerIP", .string user.peerIP)]

/-- `Unserialize`: a text that does not parse changes nothing. -/
def unserialize (lib : Libraries) (serizestr : String) (user : DNuser) : Except Fault DNuser := do
  match ← lib.read serizestr with
  | none => pure user
  | some root =>
    let commpanyid ← (← root.member "commpanyid").asInt
    let dn ← (← root.member "DN").asString
    let agentid ← (← root.member "agentid").asString
    let reason ← (← root.member "reason").asString
    let agentstatus ← (← root.member "agentstatus").asInt
    let agentPwd ← (← root.member "agentPwd").asString
    let autoAnswer ← (← root.member "autoAnswer").asBool
    let fcSignin ← (← root.member "fcSignin").asBool
    let skills ← (← root.member "skills").asString
    let peerIP ← (← root.member "peerIP").asString
    pure { user with
      commpanyid := .assign commpanyid, dn, agentid, reason
      agentstatus := .assign agentstatus, agentPwd
      autoAnswer := .assign autoAnswer, fcSignin := .assign fcSignin, skills, peerIP }

end DNuser

/-! ## SqlitePersist -/

/-- `sqlite3_exec` as the callers see it: whether it returned `SQLITE_OK`, and the table after. -/
def runStatement (lib : Libraries) (charsql : String) (table : DnuserTable) : Bool × DnuserTable :=
  match lib.sqlite3Exec charsql table with
  | some changed => (true, changed)
  | none => (false, table)

def insertTable (lib : Libraries) (user : DNuser) (table : DnuserTable) : Bool × DnuserTable :=
  runStatement lib ("Insert into  dnuser (strdn  ,strserize ) values('" ++ cStr user.dn ++ "','" ++
    cStr (user.serialize lib) ++ "') ") table

def deleteTable (lib : Libraries) (user : DNuser) (table : DnuserTable) : Bool × DnuserTable :=
  runStatement lib ("delete from  dnuser where strdn = '" ++ cStr user.dn ++ "'") table

/-- `Changestate`: the outcome of the delete is not looked at. -/
def changestate (lib : Libraries) (user : DNuser) (table : DnuserTable) : Bool × DnuserTable :=
  insertTable lib user (deleteTable lib user table).2

def createTable (lib : Libraries) (table : DnuserTable) : Bool × DnuserTable :=
  runStatement lib "create table dnuser(strdn varchar(255) ,strserize varchar(255))" table

end CallCenter.Model
