import CallCenter.Model.Callout

/-!
# The TCP command server

`CalloutManager` of `CalloutManager.cpp`: the commands that create tasks, change their rate and
write FreeSWITCH's configuration files.  The files themselves are seen through the calls of
`FreeswitchXmlCtl` in their order.
-/

namespace CallCenter.Model

open CallCenter.Foundation

/-- A call of `FreeswitchXmlCtl`. -/
inductive FreeswitchXmlCall where
  | creategata (name realm proxy expirese username password strregister : String)
  | setgataxml (name param strvalue : String)
  | createDNxml (dnnumber : String)
  | setDNpasswd (dnnumber password : String)
  deriving DecidableEq, Repr

/-- The server, with the tasks it deleted, the calls it made and the responses it sent. -/
structure CalloutManager where
  tasklist : List CallTask := []
  deleted : List CallTask := []
  xmlCalls : List FreeswitchXmlCall := []
  sent : List Json := []

namespace CalloutManager

/-- The loop of `Deletetask`, with the iterator between the tasks it passed and those ahead, and the
tasks deleted so far.  An erased task leaves the iterator behind the task that moved up, which is
passed unseen; where none moved up it stands past the end, and only an empty list ends the loop there. -/
def deletetaskFrom (passed deleted : List CallTask) :
    List CallTask → Except Fault (List CallTask × List CallTask)
  | [] => .ok (passed, deleted)
  | task :: ahead =>
    if task.stand = .finish then
      match ahead with
      | [] => if passed = [] then .ok ([], deleted ++ [task]) else .error .pastEnd
      | unseen :: ahead => deletetaskFrom (passed ++ [unseen]) (deleted ++ [task]) ahead
    else
      deletetaskFrom (passed ++ [task]) deleted ahead

/-- `Deletetask`. -/
def deletetask (manager : CalloutManager) : Except Fault CalloutManager := do
  let (tasklist, deleted) ← deletetaskFrom [] manager.deleted manager.tasklist
  pure { manager with tasklist, deleted }

/-! ## The branches of `OnMsg`

A branch yields the text of its response and the server it leaves. -/

def createTaskCmd (root : Json) (manager : CalloutManager) : Except Fault (String × CalloutManager) := do
  match ← stringField "companyID" root, ← stringField "taskID" root with
  | some companyid, some taskid =>
    pure ("create task successfully ",
      { manager with tasklist := createTask taskid companyid manager.tasklist })
  | _, _ => pure ("CreateTask lost param", manager)

def setCallrateCmd (root : Json) (manager : CalloutManager) : Except Fault (String × CalloutManager) := do
  match ← stringField "companyID" root, ← stringField "taskID" root, ← intField "rate" root with
  | some _, some taskid, some rate =>
    pure ("ok", { manager with tasklist := setCallrate taskid rate manager.tasklist })
  | _, _, _ => pure ("SetCallrate lost param", manager)

def callXml (call : FreeswitchXmlCall) (manager : CalloutManager) : CalloutManager :=
  { manager with xmlCalls := manager.xmlCalls ++ [call] }

def createFSxmlCmd (root : Json) (manager : CalloutManager) : Except Fault (String × CalloutManager) := do
  match ← stringField "name" root, ← stringField "realm" root, ← stringField "proxy" root,
    ← stringField "expirese" root, ← stringField "username" root, ← stringField "password" root,
    ← stringField "register" root with
  | some name, some realm, some proxy, some expirese, some username, some password, some strregister =>
    pure ("ok", manager.callXml (.creategata name realm proxy expirese username password strregister))
  | _, _, _, _, _, _, _ => pure ("CreateFSxml lost param", manager)

/-- The field that is checked is `name`, the one that is read `root`. -/
def setFSxmlCmd (root : Json) (manager : CalloutManager) : Except Fault (String × CalloutManager) := do
  match ← stringField "name" root, ← stringField "param" root, ← stringField "value" root with
  | some _, some param, some strvalue =>
    let name ← (← root.member "root").asString
    pure ("ok", manager.callXml (.setgataxml name param strvalue))
  | _, _, _ => pure ("SetFSxml lost param", manager)

def createDNxmlCmd (root : Json) (manager : CalloutManager) : Except Fault (String × CalloutManager) := do
  match ← stringField "DNnumber" root with
  | some dnnumber => pure ("ok", manager.callXml (.createDNxml dnnumber))
  | none => pure ("SetFSxml lost param", manager)

def setDNpasswdCmd (root : Json) (manager : CalloutManager) : Except Fault (String × CalloutManager) := do
  match ← stringField "DNnumber" root, ← stringField "password" root with
  | some dnnumber, some passwd => pure ("ok", manager.callXml (.setDNpasswd dnnumber passwd))
  | _, _ => pure ("SetFSxml lost param", manager)

/-- The commands of `OnMsg`. -/
inductive Command where
  | createTask
  | setCallrate
  | createFSxml
  | setFSxml
  | createDNxml
  | setDNpasswd
  deriving DecidableEq, Repr

def commands : List (String × Command) :=
  [("CreateTask", .createTask), ("SetCallrate", .setCallrate), ("CreateFSxml", .createFSxml),
   ("SetFSxml", .setFSxml), ("CreateDNxml", .createDNxml), ("SetDNpasswd", .setDNpasswd)]

/-- The branch of a command. -/
def branch (root : Json) (manager : CalloutManager) : Command → Except Fault (String × CalloutManager)
  | .createTask => createTaskCmd root manager
  | .setCallrate => setCallrateCmd root manager
  | .createFSxml => createFSxmlCmd root manager
  | .setFSxml => setFSxmlCmd root manager
  | .createDNxml => createDNxmlCmd root manager
  | .setDNpasswd => setDNpasswdCmd root manager

/-- `OnMsg` after `Deletetask`.  A command of no branch is answered like one that was carried out. -/
def onCommand (lib : Libraries) (data : String) (manager : CalloutManager) :
    Except Fault (String × CalloutManager) := do
  match ← lib.read (cStr data) with
  | none => pure ("parse json failed", manager)
  | some root =>
    match ← stringField "cmd" root with
    | none => pure ("param type or num is less", manager)
    | some strcmd =>
      match commands.lookup strcmd with
      | some command => branch root manager command
      | none => pure ("ok", manager)

def onMsg (lib : Libraries) (data : String) (manager : CalloutManager) :
    Except Fault (String × CalloutManager) := do
  let manager ← manager.deletetask
  manager.onCommand lib data

/-- `Ondata`: the length of the data is not looked at. -/
def ondata (lib : Libraries) (data : String) (manager : CalloutManager) : Except Fault CalloutManager := do
  let (strmsg, manager) ← manager.onMsg lib data
  pure { manager with sent := manager.sent ++ [.ofMembers [("status", .string strmsg)]] }

end CalloutManager

end CallCenter.Model
