import CallCenter.Model.AcdQueue
import CallCenter.Model.Agent
import CallCenter.Model.Ivr

/-!
# The manager

The state `ManagerDN` and the static members beside it hold, and the requests of the agents:
sign in, sign out, change of status, reset.  Each operation is a function of the state; where
the source writes through `m_DNmap[..]` the model does so too, since that creates the entry
when it is missing.
-/

namespace CallCenter.Model

open Std (ExtTreeMap)
open CallCenter.Foundation

/-- `ManagerDN::ReturnStatus`. -/
inductive ReturnStatus where
  | invalidDN
  | operatorSuccessed
  | signinFail
  | hasSignined
  | signoutFail
  deriving DecidableEq, Repr

/-- The state of the manager.  The last group is what the outside sees of it: the commands it
executed, the records it inserted, the sessions it queued, and the handles it allocated and
deleted. -/
structure ManagerDN where
  dnMap : ExtTreeMap String DNuser := ∅
  agentloginInfo : ExtTreeMap String String := ∅
  agentRoute : ExtTreeMap String (List Agent) := ∅
  gRoute : List Route := []
  callInfoMap : ExtTreeMap String CalloutInfo := ∅
  ivrmap : ExtTreeMap String IvrSession := ∅
  ivr : Managerivr := {}
  acdqueue : AcdQueue := .empty
  readyDNsema : Nat := 0
  calloutsema : Nat := 0
  dnChooseRule : Int := 2
  compyidDNrulemap : ExtTreeMap Int Int := ∅
  presisted : DnuserTable := none
  prefixNumber : String := ""
  commands : List EslCommand := []
  callRecords : List CalloutInfo := []
  arrivals : List IvrSession := []
  allocated : Nat := 0
  deleted : List Nat := []

namespace ManagerDN

/-! ## Lookups -/

/-- `checkvaildDN`: some route names the extension as its agent. -/
def checkvaildDN (dnid : String) (manager : ManagerDN) : Bool :=
  manager.gRoute.any fun route => route.agent == dnid

def getcompanyidbyDN (strDN : String) (manager : ManagerDN) : String :=
  ((manager.gRoute.find? fun route => route.agent == strDN).map Route.groupId).getD ""

/-- `GetDNbyagentid`: the member `m_DN` of the first agent with that id. -/
def getDNbyagentid (strid : String) (manager : ManagerDN) : String :=
  ((manager.dnMap.toList.find? fun entry => entry.2.agentid == strid).map fun entry => entry.2.dn).getD ""

def getCompanyIdFromgate (gatenum : String) (manager : ManagerDN) : String :=
  ((manager.gRoute.find? fun route => route.group == gatenum).map Route.groupId).getD ""

def getskillIDfromcaller (callernum : String) (manager : ManagerDN) : String :=
  (manager.dnMap[callernum]?.map DNuser.skills).getD ""

/-- `GetWaitingDN`: the number of ready agents of a company. -/
def getWaitingDN (companyid : Int) (manager : ManagerDN) : Nat :=
  manager.dnMap.toList.countP fun entry => entry.2.readyFor companyid

/-- `GetUserInfolist`: the agents of a department, or of all (`""`), that have a status, or any (`"0"`).
The asking agent has to be signed in. -/
def getUserInfolist (agentid departmentId status : String) (manager : ManagerDN) : ReturnStatus × List DNuser :=
  if agentid ∈ manager.dnMap then
    (.operatorSuccessed, (manager.dnMap.toList.map Prod.snd).filter fun user =>
      (departmentId == "" || user.departmentId.value == atoi departmentId) &&
        (status == "0" || user.agentstatus.value == atoi status))
  else
    (.invalidDN, [])

/-! ## Semaphores and single entries -/

def setDNsemaSignal (manager : ManagerDN) : ManagerDN :=
  { manager with readyDNsema := manager.readyDNsema + 1 }

def setcalloutsemafree (manager : ManagerDN) : ManagerDN :=
  { manager with calloutsema := manager.calloutsema + 1 }

/-- `m_DNmap[strdn]`, changed. -/
def updateDN (strdn : String) (ambient : Ambient) (change : DNuser → DNuser) (manager : ManagerDN) :
    ManagerDN :=
  { manager with dnMap := OrderedMap.subscript manager.dnMap strdn (.default ambient) change }

/-- The signal in `SetagnetStatus`: given after the store, and only for a ready agent. -/
def signalIfReady (agentStatus : Int) (manager : ManagerDN) : ManagerDN :=
  if agentStatus = AgentStatus.waitingReady.code then manager.setDNsemaSignal else manager

/-- `m_DNmap[strdn].SetagnetStatus(agentStatus)`. -/
def setagnetStatus (strdn : String) (agentStatus : Int) (ambient : Ambient) (manager : ManagerDN) : ManagerDN :=
  (manager.updateDN strdn ambient (DNuser.setagnetStatus agentStatus)).signalIfReady agentStatus

/-- `m_presisted.Changestate(m_DNmap[strdn])`. -/
def changestate (lib : Libraries) (strdn : String) (ambient : Ambient) (manager : ManagerDN) : ManagerDN :=
  let user := manager.dnMap[strdn]?.getD (.default ambient)
  { manager with presisted := (Model.changestate lib user manager.presisted).2 }

/-! ## Requests of the agents -/

/-- `Signin`.  A new agent is signalled before it is in the map; one that is signed in already
is made ready without a signal. -/
def signin (lib : Libraries) (request : SigninRequest) (ambient : Ambient) (manager : ManagerDN) :
    ReturnStatus × ManagerDN :=
  if manager.checkvaildDN request.agentDn then
    match manager.dnMap[request.agentDn]? with
    | none =>
      let user := (DNuser.construct request ambient).inlineSetcompanyid
        (atoi (manager.getcompanyidbyDN request.agentDn))
      let signalled := manager.signalIfReady request.statusChangetype
      (.operatorSuccessed,
        { signalled with
          dnMap := signalled.dnMap.insert request.agentDn user
          presisted := (insertTable lib user signalled.presisted).2 })
    | some _ =>
      (.hasSignined, manager.updateDN request.agentDn ambient fun user =>
        { user with agentstatus := .assign AgentStatus.waitingReady.code })
  else
    (.invalidDN, manager)

def signout (lib : Libraries) (agentId : String) (ambient : Ambient) (manager : ManagerDN) :
    ReturnStatus × ManagerDN :=
  let strDN := manager.getDNbyagentid agentId
  if strDN ≠ "" then
    let user := manager.dnMap[strDN]?.getD (.default ambient)
    (.operatorSuccessed,
      { manager with
        presisted := (deleteTable lib user manager.presisted).2
        dnMap := manager.dnMap.erase strDN })
  else
    (.invalidDN, manager)

def setDNstatus (lib : Libraries) (agentId : String) (agentStatus : Int) (ambient : Ambient)
    (manager : ManagerDN) : ReturnStatus × ManagerDN :=
  let strdn := manager.getDNbyagentid agentId
  if strdn ≠ "" then
    (.operatorSuccessed, (manager.setagnetStatus strdn agentStatus ambient).changestate lib strdn ambient)
  else
    (.invalidDN, manager)

/-- `ResetDNinfo`: ready without a signal.  On success the function ends without a `return`, so
the result is whatever the caller finds. -/
def resetDNinfo (agentid : String) (departmentId : Int) (departmentName userName : String)
    (ambient : Ambient) (manager : ManagerDN) : Cell Int × ManagerDN :=
  match manager.dnMap[agentid]? with
  | none => (.assign (-1), manager)
  | some _ =>
    (.indeterminate (ambient.junk "ResetDNinfo"), manager.updateDN agentid ambient fun user =>
      { user with
        departmentId := .assign departmentId
        departmentName, userName
        agentstatus := .assign AgentStatus.waitingReady.code })

end ManagerDN

end CallCenter.Model
