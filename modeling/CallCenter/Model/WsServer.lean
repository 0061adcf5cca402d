import CallCenter.Model.Reload

/-!
# The WebSocket server

`WSapserver` of `WS_ApServer.cpp`: the texts clients send, the responses they get, and what a
request does to the manager.  The connection and the tables behind `db_operator_t` are seen through
what they deliver while one message is handled.
-/

namespace CallCenter.Model

open CallCenter.Foundation

/-- `t_Java_userInfo`: the members of a row of `t_user_tbl` that a request uses or could compare. -/
structure JavaUserInfo where
  userName : String := ""
  nickName : String := ""
  password : String := ""
  departmentId : Int := 0
  skillId : String := ""
  mobile : String := ""
  deriving DecidableEq, Repr

/-- `GetJavaUserInfo`: whether the query delivered a row, and the last one. -/
def getJavaUserInfo (answer : Answer JavaUserInfo) : Bool × JavaUserInfo :=
  answer.rows.foldl (fun _ row => (true, row)) (false, {})

/-- `GetPermission`: the loop over the rows of `t_user_role` looks at none of them. -/
def getPermission (answer : Answer Int) : Bool :=
  answer.rows.foldl (fun ispermited _ => ispermited) true

/-- A message, with what the handler finds while it runs: the peer's address, the rows of
`t_user_tbl` and `t_user_role` for a user, and what a reload would read. -/
structure ClientMessage where
  payload : String
  remoteEndpoint : String
  users : String → Answer JavaUserInfo
  roles : String → Answer Int
  reload : DatabaseAnswers
  ambient : Ambient

/-- What leaves `on_message` uncaught: a fault of the handler, or the exception websocketpp throws
when an endpoint that does not listen is told to stop. -/
inductive Uncaught where
  | fault (fault : Fault)
  | invalidState
  deriving DecidableEq, Repr

/-- The `WSAP_` actions. -/
inductive WsapAction where
  | signIn
  | signOut
  | setAgentStatus
  | getAgentStatus
  | resetStatuschangetype
  | resetAutoAnswer
  | resetSkill
  | reset
  | outboundCall
  | answerCall
  | releaseCall
  | hold
  | retrieve
  | consult
  | consultReconnect
  | consultTransfer
  | singleStepTransfer
  | consultConference
  | conferenceJoin
  | setAssociateData
  | getAssociateData
  | jumptheQueue
  | forceSignIn
  | resetConfig
  | getusers
  | heartbeat
  | errorType
  deriving DecidableEq, Repr

/-- `CmdType`. -/
def cmdType : List (String × WsapAction) :=
  [("login", .signIn), ("logout", .signOut), ("changestate", .setAgentStatus),
   ("GetAgentStatus", .getAgentStatus), ("ResetStatuschangetype", .resetStatuschangetype),
   ("ResetAutoAnswer", .resetAutoAnswer), ("ResetSkill", .resetSkill), ("reset", .reset),
   ("dial", .outboundCall), ("AnswerCall", .answerCall), ("ReleaseCall", .releaseCall), ("Hold", .hold),
   ("Retrieve", .retrieve), ("Consult", .consult), ("ConsultReconnect", .consultReconnect),
   ("ConsultTransfer", .consultTransfer), ("SingleStepTransfer", .singleStepTransfer),
   ("ConsultConference", .consultConference), ("ConferenceJoin", .conferenceJoin),
   ("SetAssociateData", .setAssociateData), ("GetAssociateData", .getAssociateData),
   ("JumptheQueue", .jumptheQueue), ("ForceSignIn", .forceSignIn), ("ResetConfig", .resetConfig),
   ("getusers", .getusers), ("heartbeat", .heartbeat)]

def getcmdType (cmdfield : String) : WsapAction := (cmdType.lookup cmdfield).getD .errorType

/-- The int that stands for a `ReturnStatus`. -/
def ReturnStatus.code : ReturnStatus → Int
  | invalidDN => 1000
  | operatorSuccessed => 1001
  | signinFail => 1002
  | hasSignined => 1003
  | signoutFail => 1004

namespace Json

/-- What `append` makes of a null value, one element after another. -/
def appended : List Json → Json
  | [] => null
  | elements => array elements

end Json

namespace WSapserver

/-! ## Responses

Each is the value whose `toStyledString` is sent. -/

def onresponse (code : Int) (desc agentId operation : String) : Json :=
  .ofMembers
    [("cause", .string desc), ("result", .int code), ("event", .string operation),
     ("param", .ofMembers [("agentId", .string agentId)]), ("token", .string "")]

def onparamError (code : Int) (desc agentId operaton : String) : Json := onresponse code desc agentId operaton

def onSignIn (code : Int) (desc agentId : String) (userinfo : JavaUserInfo) : Json :=
  let agentStatus : Json := .ofMembers
    [("userId", .string agentId), ("status", .string "1"), ("lastState", .string "1"), ("callType", .string "0"),
     ("targetType", .string ""), ("target", .string ""), ("heldtarget", .string ""), ("callId", .string ""),
     ("privateData", .string "")]
  let agentInfo : Json := .ofMembers
    [("userId", .string agentId), ("nickName", .string userinfo.nickName), ("role", .string ""),
     ("department", .int userinfo.departmentId), ("phoneNum", .string userinfo.mobile),
     ("enableConference", .string "1"), ("enabletransferToIVR", .string "1"), ("freeswitchRegAddr", .string ""),
     ("freeswitchMediaAddr", .string "")]
  .ofMembers
    [("event", .string "onlogin"), ("result", .int code), ("cause", .string desc),
     ("param", .ofMembers [("agentStatus", agentStatus), ("agentInfo", agentInfo)]), ("token", .string "")]

def onreset (code : Int) (desc agentId : String) (userinfo : JavaUserInfo) : Json :=
  .ofMembers
    [("event", .string "onreset"), ("result", .int code), ("cause", .string desc),
     ("param", .ofMembers
       [("userId", .string agentId), ("nickName", .string userinfo.nickName),
        ("department", .int userinfo.departmentId), ("phoneNum", .string userinfo.mobile),
        ("enableConference", .string "1"), ("enabletransferToIVR", .string "1")]),
     ("token", .string "")]

def ondail (code : Int) (desc agentId : String) (bforbidden : Bool) : Json :=
  .ofMembers
    [("event", .string "ondial"), ("result", .int code), ("cause", .string desc),
     ("param", .ofMembers [("userId", .string agentId), ("forbidden", .bool bforbidden)]),
     ("token", .string "")]

def onheartbeat (code : Int) (desc agentId : String) : Json :=
  .ofMembers
    [("event", .string "onheartbeat"), ("result", .int code), ("cause", .string desc),
     ("param", .ofMembers [("userId", .string agentId)]), ("token", .string "")]

/-- The departments of a list of agents, as the `set<int>` orders them. -/
def departments (userlist : List DNuser) : List Int :=
  (userlist.map fun user => user.departmentId.value).dedup.insertionSort (· ≤ ·)

/-- One group of a `getusers` response.  Its label is read through an iterator that stands at
`userlist.end()`. -/
def departmentset (userlist : List DNuser) (ambient : Ambient) (department : Int) : Json :=
  let members := userlist.filter fun user => user.departmentId.value == department
  let users := members.map fun user => .ofMembers
      [("id", .string user.agentid), ("name", .string user.userName)]
  .ofMembers
    [("department", .int (ambient.junk "userlist.end()->m_department_id")), ("users", .appended users)]

/-- `ite->m_department_id`, `ite` being that many places behind `userlist.begin()`. -/
def departmentAt (userlist : List DNuser) (ite : Nat) : Except Fault Int :=
  match userlist[ite]? with
  | some user => .ok user.departmentId.value
  | none => .error .pastEnd

/-- The loop over the departments of a `getusers` response, with the place of `ite` and the read
through it. -/
def groupUsers (department_ : Nat → Except Fault Int) (userlist : List DNuser) :
    Nat → List Int → Except Fault (List Json)
  | _, [] => .ok []
  | ite, departmentite :: departments => do
    let label ← department_ ite
    let members := userlist.filter fun user => user.departmentId.value == departmentite
    let users := members.map fun user => .ofMembers
        [("id", .string user.agentid), ("name", .string user.userName)]
    let departmentset : Json := .ofMembers [("department", .int label), ("users", .appended users)]
    -- The inner loop leaves `ite` at the end.
    let others ← groupUsers department_ userlist userlist.length departments
    pure (departmentset :: others)

def ongetusers (code : Int) (userlist : List DNuser) (ambient : Ambient) : Json :=
  .ofMembers
    [("event", .string "ongetusers"), ("result", .int code), ("cause", .string ""),
     ("data", .appended ((departments userlist).map (departmentset userlist ambient)))]

/-! ## The branches of `on_callapclient`

A branch yields the responses it sends and the manager it leaves. -/

/-- The password of the request is asked for and not looked at. -/
def resetConfig (lib : Libraries) (message : ClientMessage) (jsonparam : Json) (manager : ManagerDN) :
    Except Fault (List Json × ManagerDN) := do
  match ← stringField "acdpassword" jsonparam with
  | some _ =>
    let reloaded ← manager.reloaddb lib message.reload
    pure ([onresponse 0 "" "" "ResetConfig"], reloaded)
  | none => pure ([onparamError (-1) "lose param of Action ResetConfig field" "" ""], manager)

/-- What a login asks `Signin` for: the user's id is the extension too. -/
def signinRequest (userId password : String) (userinfo : JavaUserInfo) (peerIP : String) : SigninRequest where
  agentId := userId
  agentDn := userId
  agentPwd := password
  statusChangetype := 1
  autoAnswer := false
  fcSignin := false
  skills := userinfo.skillId
  departmentId := userinfo.departmentId
  departmentName := ""
  userName := userinfo.userName
  peerIP := peerIP

def signIn (lib : Libraries) (message : ClientMessage) (jsonparam : Json) (manager : ManagerDN) :
    Except Fault (List Json × ManagerDN) := do
  match ← stringField "userId" jsonparam, ← stringField "password" jsonparam with
  | some userId, some password =>
    match getJavaUserInfo (message.users userId) with
    | (true, userinfo) =>
      let request := signinRequest userId password userinfo message.remoteEndpoint
      let (ret, manager) := manager.signin lib request message.ambient
      pure ([onSignIn ret.code "" userId userinfo], manager)
    | (false, _) => pure ([onparamError (-1) "cannot find the userinfo in bussiness " "" "onlogin"], manager)
  | _, _ => pure ([onparamError (-1) "lose param of Action SignIn field" "" "onlogin"], manager)

def signOut (lib : Libraries) (message : ClientMessage) (jsonparam : Json) (manager : ManagerDN) :
    Except Fault (List Json × ManagerDN) := do
  match ← stringField "userId" jsonparam with
  | some userId =>
    let (iret, manager) := manager.signout lib userId message.ambient
    pure ([onresponse iret.code "" userId "onlogout"], manager)
  | none => pure ([onparamError (-1) "lose param of Action SetAgentStatus field" "" "onlogout"], manager)

/-- The field that is checked is `state`, the one that is read `agentStatus`. -/
def setAgentStatus (lib : Libraries) (message : ClientMessage) (jsonparam : Json) (manager : ManagerDN) :
    Except Fault (List Json × ManagerDN) := do
  match ← stringField "userId" jsonparam, ← stringField "state" jsonparam with
  | some agentId, some _ =>
    let agentStatus ← (← jsonparam.member "agentStatus").asInt
    let (iret, manager) := manager.setDNstatus lib agentId agentStatus message.ambient
    pure ([onresponse iret.code "" agentId "onchangestate"], manager)
  | _, _ => pure ([onparamError (-1) "lose param of Action SetAgentStatus field" "" "onchangestate"], manager)

def getusers (message : ClientMessage) (jsonparam : Json) (manager : ManagerDN) :
    Except Fault (List Json × ManagerDN) := do
  match ← stringField "userId" jsonparam, ← stringField "state" jsonparam,
    ← stringField "department" jsonparam with
  | some userId, some status, some departmentId =>
    let (iret, userlist) := manager.getUserInfolist userId departmentId status
    pure ([ongetusers iret.code userlist message.ambient], manager)
  | _, _, _ => pure ([onparamError (-1) "lose param of Action SetAgentStatus field" "" "ongetusers"], manager)

def reset (message : ClientMessage) (jsonparam : Json) (manager : ManagerDN) :
    Except Fault (List Json × ManagerDN) := do
  match ← stringField "userId" jsonparam with
  | some userId =>
    match getJavaUserInfo (message.users userId) with
    | (true, userinfo) =>
      let (iiret, manager) :=
        manager.resetDNinfo userId userinfo.departmentId "" userinfo.userName message.ambient
      pure ([onreset iiret.value "" userId userinfo], manager)
    | (false, _) => pure ([onparamError (-1) "cannot find the userinfo in bussiness " userId "onreset"],
      manager)
  | none => pure ([onparamError (-1) "lose param of Action SetAgentStatus field" "" "onreset"], manager)

/-- The result is the variable `ret` of the handler, which nothing assigned. -/
def heartbeat (message : ClientMessage) (jsonparam : Json) (manager : ManagerDN) :
    Except Fault (List Json × ManagerDN) := do
  match ← stringField "userId" jsonparam with
  | some userId => pure ([onheartbeat (message.ambient.junk "ret") "" userId], manager)
  | none => pure ([onparamError (-1) "lose param of Action SetAgentStatus field" "" "onreset"], manager)

/-- The case has no `break`: after its response it goes on as a heartbeat. -/
def outboundCall (message : ClientMessage) (jsonparam : Json) (manager : ManagerDN) :
    Except Fault (List Json × ManagerDN) := do
  match ← stringField "userId" jsonparam with
  | some userId =>
    let ispermit := getPermission (message.roles userId)
    let (responses, manager) ← heartbeat message jsonparam manager
    pure (ondail (message.ambient.junk "ret") "" userId ispermit :: responses, manager)
  | none => pure ([onparamError (-1) "lose param of Action SetAgentStatus field" "" "ondial"], manager)

/-- The branch of an action.  The other actions are recognised and send nothing. -/
def perform (lib : Libraries) (message : ClientMessage) (jsonparam : Json) (manager : ManagerDN) :
    WsapAction → Except Fault (List Json × ManagerDN)
  | .resetConfig => resetConfig lib message jsonparam manager
  | .signIn => signIn lib message jsonparam manager
  | .signOut => signOut lib message jsonparam manager
  | .setAgentStatus => setAgentStatus lib message jsonparam manager
  | .getusers => getusers message jsonparam manager
  | .reset => reset message jsonparam manager
  | .outboundCall => outboundCall message jsonparam manager
  | .heartbeat => heartbeat message jsonparam manager
  | _ => .ok ([], manager)

def onCallapclient (lib : Libraries) (message : ClientMessage) (manager : ManagerDN) :
    Except Fault (List Json × ManagerDN) := do
  match ← lib.read message.payload with
  | none => pure ([onparamError (-1) "json parse failed" "" ""], manager)
  | some root =>
    match ← stringField "action" root with
    | some action =>
      match ← root.member "param" with
      | .null => pure ([onparamError (-1) "lose param field" "" ""], manager)
      | jsonparam => perform lib message jsonparam manager (getcmdType action)
    | none => pure ([onparamError (-1) "lose [action] field" "" ""], manager)

end WSapserver

/-- The server: the manager its handlers work on, whether its endpoint listens, and what it sent. -/
structure WSapserver where
  manager : ManagerDN := {}
  listening : Bool := false
  sent : List Json := []

namespace WSapserver

/-- `startServer`, on what `main` loaded. -/
def startServer (manager : ManagerDN) : WSapserver := { manager, listening := true }

/-- `on_message`: it catches what websocketpp throws out of `on_callapclient`, and nothing else. -/
def onMessage (lib : Libraries) (server : WSapserver) (message : ClientMessage) : Except Uncaught WSapserver :=
  if message.payload = "stop-listening" then
    if server.listening then .ok { server with listening := false } else .error .invalidState
  else if message.payload ≠ "" then
    match onCallapclient lib message server.manager with
    | .ok (responses, manager) => .ok { server with manager, sent := server.sent ++ responses }
    | .error fault => .error (.fault fault)
  else
    .ok server

/-- The step a message takes, where it does not end the process. -/
def handle (lib : Libraries) (server : WSapserver) (message : ClientMessage) : Option WSapserver :=
  (server.onMessage lib message).toOption

end WSapserver

end CallCenter.Model
