import CallCenter.Model.Manager

/-!
# Dispatching calls to agents

The pickers behind `GetavailableAgent`, and what `TransformAgent`, `PlayBack` and
`inline_TransformAgent` do with a session.  A picker scans the agents and waits on
`m_readyDNsema` until a scan finds one; here is one scan, and its `none` is the wait.
-/

namespace CallCenter.Model

open Std (ExtTreeMap)
open CallCenter.Foundation

/-- The functions the switch of `GetavailableAgent` chooses from. -/
inductive Picker where
  | robin
  | idelAgent
  | leastTalkTime
  | fewestCalls
  deriving DecidableEq, Repr

/-- The switch over `DN_choose_rule`; `none` is a rule outside the enumeration. -/
def Picker.ofRule (rule : Int) : Option Picker :=
  if rule = 0 then some .robin
  else if rule = 1 then some .idelAgent
  else if rule = 2 then some .robin
  else if rule = 3 then some .robin
  else if rule = 4 then some .leastTalkTime
  else if rule = 5 then some .fewestCalls
  else if rule = 6 then some .robin
  else none

/-- The locals of a picker that compares agents. -/
structure Choice where
  isFind : Bool := false
  maxidelminiute : Int
  dn : String := ""
  deriving DecidableEq, Repr

/-- The loop body of a comparing picker: `improves` is its comparison against the best value so
far, `measure` the value it remembers. -/
def Choice.visit (companyid : Int) (improves : Int → DNuser → Bool) (measure : DNuser → Int)
    (choice : Choice) (entry : String × DNuser) : Choice :=
  if entry.2.readyFor companyid then
    if improves choice.maxidelminiute entry.2 then
      { isFind := true, maxidelminiute := measure entry.2, dn := entry.1 }
    else
      { choice with isFind := true }
  else
    choice

/-- One pass of a comparing picker over the agents. -/
def compareAgents (companyid start : Int) (improves : Int → DNuser → Bool) (measure : DNuser → Int)
    (agents : List (String × DNuser)) : Option String :=
  let choice := agents.foldl (Choice.visit companyid improves measure) { maxidelminiute := start }
  if choice.isFind then some choice.dn else none

/-- The `while (1)` of a comparing picker, over the clocks and agents its passes meet: its locals live
on from pass to pass.  `none` is a wait behind the last of them. -/
def compareLoop (companyid : Int) (improves : Int → Int → DNuser → Bool) (measure : Int → DNuser → Int)
    (choice : Choice) : List (Int × List (String × DNuser)) → Option String
  | [] => none
  | (now, agents) :: passes =>
    let choice := agents.foldl (Choice.visit companyid (improves now) (measure now)) choice
    if choice.isFind then some choice.dn else compareLoop companyid improves measure choice passes

namespace ManagerDN

/-- One pass of `GetAgent_robin`. -/
def getAgentRobin (companyid : Int) (manager : ManagerDN) : Option String :=
  (manager.dnMap.toList.find? fun entry => entry.2.readyFor companyid).map Prod.fst

/-- One pass of `GetAgent_idel_agent`. -/
def getAgentIdelAgent (companyid now : Int) (manager : ManagerDN) : Option String :=
  compareAgents companyid 0 (fun best user => best < user.getidelminiute now)
    (fun user => user.getidelminiute now) manager.dnMap.toList

/-- One pass of `GetAgent_least_talk_time`: it remembers `m_idelminiutes`, not the talk time. -/
def getAgentLeastTalkTime (companyid : Int) (manager : ManagerDN) : Option String :=
  compareAgents companyid 999999 (fun best user => best > user.callminiutes.value)
    (fun user => user.idelminiutes.value) manager.dnMap.toList

/-- One pass of `GetAgent_fewest_calls`: it remembers `m_idelminiutes`, not the number of calls. -/
def getAgentFewestCalls (companyid : Int) (manager : ManagerDN) : Option String :=
  compareAgents companyid 999999 (fun best user => best > user.calltimes.value)
    (fun user => user.idelminiutes.value) manager.dnMap.toList

/-- `GetAgent_idel_agent`, over the clocks and agents its passes meet. -/
def getAgentIdelAgentLoop (companyid : Int) (passes : List (Int × ManagerDN)) : Option String :=
  compareLoop companyid (fun now best user => best < user.getidelminiute now)
    (fun now user => user.getidelminiute now) { maxidelminiute := 0 }
    (passes.map fun pass => (pass.1, pass.2.dnMap.toList))

/-- One pass of the picker a rule stands for. -/
def pick (picker : Picker) (companyid : Int) (ambient : Ambient) (manager : ManagerDN) : Option String :=
  match picker with
  | .robin => manager.getAgentRobin companyid
  | .idelAgent => manager.getAgentIdelAgent companyid ambient.now
  | .leastTalkTime => manager.getAgentLeastTalkTime companyid
  | .fewestCalls => manager.getAgentFewestCalls companyid

/-- The start of `GetavailableAgent`: a company with a rule of its own changes the rule for all
that come after it. -/
def adoptRule (companyid : Int) (manager : ManagerDN) : ManagerDN :=
  { manager with
    dnChooseRule := (manager.compyidDNrulemap[companyid]?).getD manager.dnChooseRule }

/-- A scan of `GetavailableAgent` after it chose the rule: what it returns, or `none` where it waits
for the next scan. -/
def scan (rule companyid : Int) (ambient : Ambient) (manager : ManagerDN) : Option String :=
  match Picker.ofRule rule with
  | some picker => manager.pick picker companyid ambient
  | none => some ""

/-- `GetavailableAgent` up to the end of its first scan. -/
def getavailableAgent (companyid : Int) (ambient : Ambient) (manager : ManagerDN) : Option String :=
  let manager := manager.adoptRule companyid
  manager.scan manager.dnChooseRule companyid ambient

/-! ## Commands on a channel -/

def eslExecute (handle : Option Handle) (app arg uuid : String) (manager : ManagerDN) : ManagerDN :=
  { manager with commands := manager.commands ++ [{ handle, app, arg, uuid }] }

def playBack (handle : Handle) (recorefile uuid : String) (manager : ManagerDN) : ManagerDN :=
  (manager.eslExecute (some handle) "break" "" uuid).eslExecute (some handle) "playback" recorefile uuid

/-- `TransformAgent`: a copy of the session goes into the ACD queue. -/
def transformAgent (handle : Handle) (uuid : String) (session : IvrSession) (manager : ManagerDN) : ManagerDN :=
  let session := { session with handle := some handle, uuid }
  { manager with
    acdqueue := manager.acdqueue.put session
    arrivals := manager.arrivals ++ [session] }

/-- `esl_disconnect` and `delete` of a handle `nwaycc_callback` allocated. -/
def deleteHandle (handle : Nat) (manager : ManagerDN) : ManagerDN :=
  { manager with deleted := manager.deleted ++ [handle] }

/-- `inline_TransformAgent`: the agent rings, the caller is bridged to its extension, and the
handle the session brought along is released. -/
def inlineTransformAgent (lib : Libraries) (strdn : String) (session : IvrSession) (ambient : Ambient)
    (manager : ManagerDN) : ManagerDN :=
  let ringing := (manager.setagnetStatus strdn AgentStatus.ringing.code ambient).changestate lib strdn ambient
  let bridged := (ringing.eslExecute session.handle "break" "" session.uuid).eslExecute session.handle
    "bridge" ("user/" ++ cStr strdn) session.uuid
  match session.newhandle with
  | some newhandle => bridged.deleteHandle newhandle
  | none => bridged

end ManagerDN

end CallCenter.Model
