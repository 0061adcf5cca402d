import CallCenter.Model.Manager

/-!
# Loading and reloading

`reloaddb` with the queries of `db_operator_t` behind it, and `SqlitePersist::LoadDNSet`.  A
query is seen through what it delivers: its rows, and whether the last of them was followed by
an `SQLException`, which every query catches.
-/

namespace CallCenter.Model

open Std (ExtTreeMap)
open CallCenter.Foundation

/-- What a query delivers before it ends or fails. -/
structure Answer (Row : Type) where
  rows : List Row
  completed : Bool := true

/-- What the four queries of a reload deliver. -/
structure DatabaseAnswers where
  routes : Answer Route
  logins : Answer (String × String)
  rules : Answer (Int × Int)
  nodes : Answer IvrNode

/-- `set_string(ag.exten, ..)` on a `char[20]`. -/
def setString (str : String) : String := String.ofList ((cStr str).toList.take 19)

/-- The agents of one route group. -/
def groupAgents (group : String) (vRoute : List Route) : List Agent :=
  (vRoute.filter fun route => route.group == group).map fun route =>
    { exten := setString route.agent, state := .idle }

/-- The groups of the delivered rows, without repetitions. -/
def groupsOf (routes : List Route) : List String := (routes.map Route.group).dedup

/-- `SelectRouteAgent`: an exception keeps the rows read so far and skips the agents. -/
def selectRouteAgent (answer : Answer Route) (agents : ExtTreeMap String (List Agent)) (vRoute : List Route) :
    ExtTreeMap String (List Agent) × List Route :=
  let vRoute := vRoute ++ answer.rows
  if answer.completed then
    ((groupsOf answer.rows).foldl (fun agents group =>
      if (groupAgents group vRoute).length > 0 then agents.insertIfNew group (groupAgents group vRoute)
      else agents) agents, vRoute)
  else
    (agents, vRoute)

/-- `Getagentandpwd`: `insert` keeps the first row of an agent. -/
def getagentandpwd (answer : Answer (String × String)) (agents : ExtTreeMap String String) :
    ExtTreeMap String String :=
  answer.rows.foldl (fun agents row => agents.insertIfNew row.1 row.2) agents

/-- `GetDNchooserule`: `insert` keeps a rule that is there already. -/
def getDNchooserule (answer : Answer (Int × Int)) (dnRule : ExtTreeMap Int Int) : ExtTreeMap Int Int :=
  answer.rows.foldl (fun dnRule row => dnRule.insertIfNew row.1 row.2) dnRule

namespace ManagerDN

def reloaddb (lib : Libraries) (answers : DatabaseAnswers) (manager : ManagerDN) : Except Fault ManagerDN := do
  let (agentRoute, gRoute) := selectRouteAgent answers.routes ∅ []
  let agentloginInfo := getagentandpwd answers.logins ∅
  let compyidDNrulemap := getDNchooserule answers.rules manager.compyidDNrulemap
  let ivr ← initivrflow lib answers.nodes.rows {}
  pure { manager with agentRoute, gRoute, agentloginInfo, compyidDNrulemap, ivr }

/-- One row of `LoadDNSet`: the agent comes back ready, and the manager is signalled. -/
def restoreRow (lib : Libraries) (ambient : Ambient) (manager : ManagerDN) (row : String × String) :
    Except Fault ManagerDN := do
  if row.2 ≠ "" then
    let user ← (DNuser.default ambient).unserialize lib row.2
    let signalled := manager.setDNsemaSignal
    pure { signalled with
      dnMap := signalled.dnMap.insert row.1
        { user with agentstatus := .assign AgentStatus.waitingReady.code } }
  else
    pure manager

/-- `LoadDNSet`; `opened` is whether `data.db` could be opened. -/
def loadDNSet (lib : Libraries) (opened : Bool) (ambient : Ambient) (manager : ManagerDN) :
    Except Fault ManagerDN :=
  if opened then
    match manager.presisted with
    | some rows => rows.foldlM (restoreRow lib ambient) manager
    | none => .ok { manager with presisted := (createTable lib none).2 }
  else
    .ok manager

/-- `loaddb`, which `main` calls once: the loaders of a reload, on whatever the maps hold. -/
def loaddb (lib : Libraries) (answers : DatabaseAnswers) (opened : Bool) (ambient : Ambient)
    (manager : ManagerDN) : Except Fault ManagerDN := do
  let (agentRoute, gRoute) := selectRouteAgent answers.routes manager.agentRoute manager.gRoute
  let agentloginInfo := getagentandpwd answers.logins manager.agentloginInfo
  let compyidDNrulemap := getDNchooserule answers.rules manager.compyidDNrulemap
  let ivr ← initivrflow lib answers.nodes.rows manager.ivr
  { manager with agentRoute, gRoute, agentloginInfo, compyidDNrulemap, ivr }.loadDNSet lib opened ambient

end ManagerDN

end CallCenter.Model
