import CallCenter.Verified.ClientRequests
import CallCenter.Verified.Restoration

/-!
# What `changestate` stores and `getusers` lists

The handler of `changestate` checks the member `state` and reads the member `agentStatus`.  So the
status a client asks for is the one that is stored exactly when the message carries it there as well;
a message with the documented members alone always stores 0.
-/

namespace CallCenter.Verified

open Std (ExtTreeMap)
open CallCenter.Foundation CallCenter.Model
open CallCenter.Model.WSapserver

/-! ## Requests -/

/-- The message is a request for this action, with these members in `param`. -/
structure Requests (lib : Libraries) (message : ClientMessage) (action : String)
    (fields : List (String × Json)) :
    Prop where
  plain : message.payload ≠ "stop-listening"
  filled : message.payload ≠ ""
  parsed : ∃ members : List (String × Json), lib.read message.payload = .ok (some (.object members)) ∧
    members.lookup "action" = some (.string action) ∧ members.lookup "param" = some (.object fields)

theorem Requests.handle_eq {lib : Libraries} {message : ClientMessage} {action : String}
    {fields : List (String × Json)} (requests : Requests lib message action fields) (server : WSapserver) :
    server.handle lib message =
      (perform lib message (.object fields) server.manager (getcmdType action)).toOption.map fun outcome =>
        { server with manager := outcome.2, sent := server.sent ++ outcome.1 } := by
  obtain ⟨members, parsed, named, given⟩ := requests.parsed
  have dispatched : onCallapclient lib message server.manager =
      perform lib message (.object fields) server.manager (getcmdType action) := by
    rw [onCallapclient, parsed]
    simp only [bind, Except.bind, stringField, Json.member, named, given, Option.getD_some]
    rfl
  rw [handle, onMessage, if_neg requests.plain, if_pos requests.filled, dispatched]
  cases perform lib message (.object fields) server.manager (getcmdType action) <;> rfl

theorem stringField_object (name : String) (fields : List (String × Json)) :
    stringField name (.object fields) = .ok ((fields.lookup name).getD .null).text? := rfl

/-- A member that is there is the text the check of the field yields. -/
theorem stringField_of_lookup {name value : String} {fields : List (String × Json)}
    (found : fields.lookup name = some (.string value)) :
    stringField name (.object fields) = .ok (some value) := by
  rw [stringField_object, found]
  rfl

/-! ## What `getusers` lists -/

/-- The response names the user in one of its groups. -/
def Lists (userId : String) (response : Json) : Prop :=
  ∃ groups, response.member "data" = .ok (.array groups) ∧
    ∃ group ∈ groups, ∃ users, group.member "users" = .ok (.array users) ∧
      ∃ info ∈ users, info.member "id" = .ok (.string userId)

theorem appended_of_mem {element : Json} {elements : List Json} (member : element ∈ elements) :
    Json.appended elements = .array elements := by
  cases elements with
  | nil => contradiction
  | cons => rfl

theorem mem_departments_iff {userlist : List DNuser} {department : Int} :
    department ∈ departments userlist ↔ ∃ user ∈ userlist, user.departmentId.value = department := by
  simp [departments]

/-- Every agent of the list is named in the response, in the group of its department. -/
theorem lists_ongetusers {userlist : List DNuser} {user : DNuser} (member : user ∈ userlist) (code : Int)
    (ambient : Ambient) : Lists user.agentid (ongetusers code userlist ambient) := by
  have grouped : departmentset userlist ambient user.departmentId.value ∈
      (departments userlist).map (departmentset userlist ambient) :=
    List.mem_map_of_mem (mem_departments_iff.mpr ⟨user, member, rfl⟩)
  have named : Json.ofMembers [("id", .string user.agentid), ("name", .string user.userName)] ∈
      (userlist.filter fun other => other.departmentId.value == user.departmentId.value).map fun other =>
        .ofMembers [("id", .string other.agentid), ("name", .string other.userName)] :=
    List.mem_map_of_mem (List.mem_filter.mpr ⟨member, beq_self_eq_true _⟩)
  refine ⟨_, ?_, _, grouped, _, ?_, _, named, ?_⟩
  · rw [ongetusers, member_ofMembers, appended_of_mem grouped]
    rfl
  · rw [departmentset, member_ofMembers, appended_of_mem named]
    rfl
  · rw [member_ofMembers]
    rfl

/-- With the decimal text of a status `getusers` looks for that status. -/
theorem atoi_toString_code (status : AgentStatus) : atoi (toString status.code) = status.code := by
  cases status <;> exact atoi_toString (by decide) (by decide)

theorem getUserInfolist_status {manager : ManagerDN} {asker dn : String} {user : DNuser} {status : AgentStatus}
    (asks : asker ∈ manager.dnMap) (present : manager.dnMap[dn]? = some user)
    (stands : user.agentstatus.value = status.code) :
    ∃ userlist, manager.getUserInfolist asker "" (toString status.code) = (.operatorSuccessed, userlist) ∧
      user ∈ userlist := by
  refine ⟨_, by rw [ManagerDN.getUserInfolist, if_pos asks], List.mem_filter.mpr ⟨?_, ?_⟩⟩
  · exact List.mem_map.mpr ⟨(dn, user), OrderedMap.mem_toList_iff.mpr present, rfl⟩
  · simp only [stands, atoi_toString_code]
    simp

/-! ## What `changestate` stores -/

/-- The branch stores what `agentStatus` reads as. -/
theorem setAgentStatus_eq (lib : Libraries) (message : ClientMessage) {fields : List (String × Json)}
    {userId state : String} (named : fields.lookup "userId" = some (.string userId))
    (stated : fields.lookup "state" = some (.string state)) (manager : ManagerDN) :
    setAgentStatus lib message (.object fields) manager =
      (((fields.lookup "agentStatus").getD .null).asInt).map fun agentStatus =>
        ([onresponse (manager.setDNstatus lib userId agentStatus message.ambient).1.code "" userId "onchangestate"],
          (manager.setDNstatus lib userId agentStatus message.ambient).2) := by
  rw [setAgentStatus, stringField_of_lookup named, stringField_of_lookup stated]
  simp only [bind, Except.bind, Json.member]
  cases ((fields.lookup "agentStatus").getD .null).asInt <;> rfl

/-- The agent a user id stands for: the one under the extension `GetDNbyagentid` answers. -/
structure SignedInAs (userId : String) (user : DNuser) (manager : ManagerDN) : Prop where
  named : manager.getDNbyagentid userId ≠ ""
  present : manager.dnMap[manager.getDNbyagentid userId]? = some user
  own : user.agentid = userId

/-- A change of status stores it with the agent that is named, and changes no other entry. -/
theorem setDNstatus_entry {manager : ManagerDN} {userId : String} (named : manager.getDNbyagentid userId ≠ "")
    (lib : Libraries) (agentStatus : Int) (ambient : Ambient) (dn : String) :
    (manager.setDNstatus lib userId agentStatus ambient).2.dnMap[dn]? =
      if manager.getDNbyagentid userId = dn then
        some (((manager.dnMap[dn]?).getD (.default ambient)).setagnetStatus agentStatus)
      else manager.dnMap[dn]? := by
  rw [ManagerDN.setDNstatus, if_pos named, changestate_dnMap, setagnetStatus_dnMap,
    OrderedMap.getElem?_subscript]
  split
  · rename_i same
    rw [same]
  · rfl

/-! ### Whom a user id stands for

Every login signs a user in under its id, so in the runs of a server an id stands for the entry of
that key. -/

/-- The entry carries its key as extension and user id, or was created by `operator[]` and carries none. -/
def OwnNames (dn : String) (user : DNuser) : Prop :=
  user.dn = dn ∧ user.agentid = dn ∨ user.dn = "" ∧ user.agentid = ""

def UnderOwnNames (manager : ManagerDN) : Prop :=
  ∀ (dn : String) (user : DNuser), manager.dnMap[dn]? = some user → OwnNames dn user

/-- The sign-in is of a user under its own id, as every login is. -/
def LogsIn : Action → Prop
  | .signin request _ => request.agentId = request.agentDn
  | _ => True

theorem logsIn_of_asks {message : ClientMessage} {jsonparam : Json} {kind : WsapAction} {action : Action}
    (asked : asks message jsonparam kind = .ok (some action)) : LogsIn action := by
  cases action with
  | signin request ambient =>
    cases kind with
    | signIn =>
      obtain ⟨userId, _, asked⟩ := Outcomes.bind_ok asked
      obtain ⟨password, _, asked⟩ := Outcomes.bind_ok asked
      split at asked
      · split at asked
        · obtain ⟨rfl, _⟩ := Action.signin.inj (Option.some.inj (Except.ok.inj asked))
          rfl
        · cases asked
      · cases asked
    | resetConfig =>
      obtain ⟨acdpassword, _, asked⟩ := Outcomes.bind_ok asked
      cases acdpassword <;> cases asked
    | signOut =>
      obtain ⟨userId, _, asked⟩ := Outcomes.bind_ok asked
      cases userId <;> cases asked
    | setAgentStatus =>
      obtain ⟨userId, _, asked⟩ := Outcomes.bind_ok asked
      obtain ⟨state, _, asked⟩ := Outcomes.bind_ok asked
      split at asked
      · obtain ⟨_, _, asked⟩ := Outcomes.bind_ok asked
        obtain ⟨_, _, asked⟩ := Outcomes.bind_ok asked
        cases asked
      · cases asked
    | reset =>
      obtain ⟨userId, _, asked⟩ := Outcomes.bind_ok asked
      split at asked
      · split at asked <;> cases asked
      · cases asked
    | getusers | outboundCall | heartbeat =>
      obtain ⟨_, _, asked⟩ := Outcomes.bind_ok asked
      cases asked
    | _ => cases asked
  | _ => trivial

theorem logsIn_of_requested {lib : Libraries} {message : ClientMessage} {action : Action}
    (asked : requested lib message = .ok (some action)) : LogsIn action := by
  unfold requested at asked
  obtain ⟨parsed, _, asked⟩ := Outcomes.bind_ok asked
  split at asked
  · cases asked
  · obtain ⟨named, _, asked⟩ := Outcomes.bind_ok asked
    split at asked
    · obtain ⟨jsonparam, _, asked⟩ := Outcomes.bind_ok asked
      split at asked
      · cases asked
      · exact logsIn_of_asks asked
    · cases asked

/-- A change puts in entries under their own names and leaves the names of the others. -/
def AgentChange.KeepsNames : AgentChange → Prop
  | .unchanged => True
  | .signedIn dn user => OwnNames dn user
  | .touched _ fresh change => (fresh.dn = "" ∧ fresh.agentid = "") ∧
      ∀ user : DNuser, (change user).dn = user.dn ∧ (change user).agentid = user.agentid
  | .adjusted _ change => ∀ user : DNuser, (change user).dn = user.dn ∧ (change user).agentid = user.agentid
  | .signedOut _ => True

theorem agentChange_keepsNames {before : System} {action : Action} (logsIn : LogsIn action) :
    (agentChange before action).KeepsNames := by
  have changes := changes_agentChange before action
  generalize agentChange before action = change at changes
  cases changes with
  | unchanged | signedOut => trivial
  | signedIn => exact .inl ⟨rfl, logsIn⟩
  | ended | answered => exact fun _ => ⟨rfl, rfl⟩
  | signedInAgain | statusSet | reset | dispatched => exact ⟨⟨rfl, rfl⟩, fun _ => ⟨rfl, rfl⟩⟩

theorem underOwnNames_step {lib : Libraries} {before after : System} {action : Action}
    (taken : before.step lib action = some after) (logsIn : LogsIn action)
    (fresh : restores before action = false)
    (own : UnderOwnNames before.manager) : UnderOwnNames after.manager := by
  intro dn user present
  rw [step_agents taken fresh] at present
  have keeps := @agentChange_keepsNames before action logsIn
  cases AgentChange.entry_of_apply present with
  | inl there => exact own dn user there
  | inr made =>
    -- the entry is new, or an update of the one under its key
    cases change : agentChange before action with
    | unchanged =>
      rw [change] at made
      contradiction
    | signedIn key added =>
      rw [change] at made keeps
      obtain ⟨rfl, rfl⟩ := made
      exact keeps
    | touched key created update =>
      rw [change] at made keeps
      obtain ⟨rfl, rfl⟩ := made
      obtain ⟨keptDn, keptId⟩ := keeps.2 ((before.manager.dnMap[key]?).getD created)
      rw [OwnNames, keptDn, keptId]
      cases found : before.manager.dnMap[key]? with
      | none => exact .inr keeps.1
      | some old => exact own key old found
    | adjusted key update =>
      rw [change] at made keeps
      obtain ⟨rfl, old, found, rfl⟩ := made
      obtain ⟨keptDn, keptId⟩ := keeps old
      rw [OwnNames, keptDn, keptId]
      exact own key old found
    | signedOut key =>
      rw [change] at made
      contradiction

/-- Where users are signed in by logins only, an id stands for the entry that carries it. -/
theorem signedInAs_of_logins {lib : Libraries} {start reached : System} {actions : List Action}
    (own : UnderOwnNames start.manager)
    (run : Run (Guarded (fun system action => LogsIn action ∧ restores system action = false)
      (Steps (System.step lib))) start actions reached)
    {dn userId : String} {user : DNuser} (named : userId ≠ "")
    (present : reached.manager.dnMap[dn]? = some user)
    (carries : user.agentid = userId) : dn = userId ∧ SignedInAs userId user reached.manager := by
  have names : UnderOwnNames reached.manager :=
    run.invariant (fun system => UnderOwnNames system.manager)
      (fun _ _ _ step own => underOwnNames_step step.2 step.1.1 step.1.2 own) own
  have underId : ∀ (key : String) (other : DNuser), reached.manager.dnMap[key]? = some other →
      other.agentid = userId → key = userId ∧ other.dn = userId := by
    intro key other found same
    cases names key other found with
    | inl both => exact ⟨both.2.symm.trans same, both.1.trans (both.2.symm.trans same)⟩
    | inr neither => exact absurd (same.symm.trans neither.2) named
  have here : dn = userId := (underId dn user present carries).1
  have answered : reached.manager.getDNbyagentid userId = userId := by
    have member : (dn, user) ∈ reached.manager.dnMap.toList := OrderedMap.mem_toList_iff.mpr present
    unfold ManagerDN.getDNbyagentid
    cases found : reached.manager.dnMap.toList.find? fun entry => entry.2.agentid == userId with
    | none => exact absurd (List.find?_eq_none.mp found _ member) (by simp [carries])
    | some entry =>
      have carried : entry.2.agentid = userId := by simpa using List.find?_some found
      exact (underId entry.1 entry.2
        (OrderedMap.mem_toList_iff.mp (List.mem_of_find?_eq_some found)) carried).2
  exact ⟨here, by rw [answered]; exact named, by rw [answered, ← here]; exact present, carries⟩

/-! ## Agreement of the two requests -/

/-- What a change to a status should leave: the agent has it, no other entry changed, `getusers` for
it lists the agent, and no status outside the enumeration was stored. -/
structure StatusChanged (lib : Libraries) (userId : String) (status : AgentStatus) (before : ManagerDN)
    (after : WSapserver) : Prop where
  stored : ∃ user : DNuser, after.manager.dnMap[before.getDNbyagentid userId]? = some user ∧
    user.agentstatus.value = status.code
  others : ∀ dn : String, dn ≠ before.getDNbyagentid userId → after.manager.dnMap[dn]? = before.dnMap[dn]?
  listed : status ≠ .noLogin → ∀ (message : ClientMessage) (fields : List (String × Json)) (asker : String),
    Requests lib message "getusers" fields → fields.lookup "userId" = some (.string asker) →
    fields.lookup "state" = some (.string (toString status.code)) →
    fields.lookup "department" = some (.string "") → asker ∈ after.manager.dnMap →
    ∃ response, after.handle lib message = some { after with sent := after.sent ++ [response] } ∧
      Lists userId response
  enumerated : ∀ (dn : String) (user : DNuser), after.manager.dnMap[dn]? = some user →
    before.dnMap[dn]? = some user ∨ ∃ status : AgentStatus, user.agentstatus.value = status.code

/-- `getusers` for the status an agent has lists it. -/
theorem getusers_lists {lib : Libraries} {server : WSapserver} {message : ClientMessage}
    {fields : List (String × Json)} {asker dn : String} {user : DNuser} {status : AgentStatus}
    (requests : Requests lib message "getusers" fields) (asks : fields.lookup "userId" = some (.string asker))
    (stated : fields.lookup "state" = some (.string (toString status.code)))
    (anywhere : fields.lookup "department" = some (.string "")) (known : asker ∈ server.manager.dnMap)
    (present : server.manager.dnMap[dn]? = some user) (stands : user.agentstatus.value = status.code) :
    ∃ response, server.handle lib message = some { server with sent := server.sent ++ [response] } ∧
      Lists user.agentid response := by
  obtain ⟨userlist, found, member⟩ := getUserInfolist_status known present stands
  refine ⟨ongetusers ReturnStatus.operatorSuccessed.code userlist message.ambient, ?_,
    lists_ongetusers member _ _⟩
  have branch : getcmdType "getusers" = .getusers := by decide +kernel
  rw [requests.handle_eq, branch, perform, getusers, stringField_of_lookup asks, stringField_of_lookup stated,
    stringField_of_lookup anywhere]
  simp only [bind, Except.bind, found]
  rfl

/-- A change of status does what was asked exactly when the member `agentStatus`, which nobody
checks, reads as the status that `state` names. -/
theorem changestate_agrees_iff {lib : Libraries} {server : WSapserver} {message : ClientMessage}
    {fields : List (String × Json)} {userId : String} {user : DNuser} {status : AgentStatus}
    (requests : Requests lib message "changestate" fields)
    (named : fields.lookup "userId" = some (.string userId))
    (stated : fields.lookup "state" = some (.string (toString status.code)))
    (signedIn : SignedInAs userId user server.manager) :
    (∃ after, server.handle lib message = some after ∧ StatusChanged lib userId status server.manager after) ↔
      ((fields.lookup "agentStatus").getD .null).asInt = .ok status.code := by
  have branch : getcmdType "changestate" = .setAgentStatus := by decide +kernel
  have handled := requests.handle_eq server
  rw [branch, perform, setAgentStatus_eq lib message named stated] at handled
  constructor
  · rintro ⟨after, taken, changed⟩
    rw [handled] at taken
    cases read : ((fields.lookup "agentStatus").getD .null).asInt with
    | error fault =>
      rw [read] at taken
      contradiction
    | ok agentStatus =>
      -- the entry holds what was read, and by assumption what was asked for
      rw [read] at taken
      obtain rfl := Option.some.inj taken
      obtain ⟨entry, present, stands⟩ := changed.stored
      rw [setDNstatus_entry signedIn.named, if_pos rfl] at present
      obtain rfl := Option.some.inj present
      rw [← stands]
      rfl
  · intro read
    rw [read] at handled
    refine ⟨_, handled, ?_⟩
    have entries := setDNstatus_entry signedIn.named lib status.code message.ambient
    have changed := entries (server.manager.getDNbyagentid userId)
    rw [if_pos rfl, signedIn.present, Option.getD_some] at changed
    constructor
    · exact ⟨_, changed, rfl⟩
    · intro dn other
      exact (entries dn).trans (if_neg other.symm)
    · intro _ message fields asker requests asks stated anywhere known
      have listed := getusers_lists requests asks stated anywhere known changed rfl
      rwa [show (user.setagnetStatus status.code).agentid = userId from signedIn.own] at listed
    · intro dn entry present
      by_cases same : server.manager.getDNbyagentid userId = dn
      · subst same
        obtain rfl := Option.some.inj (changed.symm.trans present)
        exact .inr ⟨status, rfl⟩
      · exact .inl (((entries dn).trans (if_neg same)).symm.trans present)

def parkText : String :=
  "\x7b\x22action\x22:\x22changestate\x22,\x22param\x22:\x7b\x22state\x22:\x223\x22,\x22userId\x22:\x221001\x22\x7d\x7d"

def parkTwiceText : String :=
  "\x7b\x22action\x22:\x22changestate\x22,\x22param\x22:\x7b\x22agentStatus\x22:3,\x22state\x22:\x223\x22,\x22userId\x22:\x221001\x22\x7d\x7d"

def parkFields : List (String × Json) := [("state", .string "3"), ("userId", .string "1001")]

/-- jsoncpp on two requests to park an agent; the second gives the status in both members. -/
def parkLibraries : Libraries :=
  { lockedDatabase with
    flat_of_parse := fun _ _ _ => rfl
    parse := fun text =>
      if text = parkText then some (.object [("action", .string "changestate"), ("param", .object parkFields)])
      else if text = parkTwiceText then
        some (.object [("action", .string "changestate"), ("param", .object (("agentStatus", .int 3) :: parkFields))])
      else none }

/-- The server of a company whose agent 1001 has signed in. -/
def readyServer : WSapserver :=
  startServer (finish (System.step parkLibraries) (System.initial none "88")
    [configured companyRoutes [], readyAgent "1001"]).manager

theorem requests_park : Requests parkLibraries (fromClient parkText) "changestate" parkFields :=
  ⟨by decide +kernel, by decide +kernel, _, rfl, rfl, rfl⟩

theorem requests_parkTwice :
    Requests parkLibraries (fromClient parkTwiceText) "changestate"
      (("agentStatus", .int 3) :: parkFields) := by
  have different : parkTwiceText ≠ parkText := by decide +kernel
  refine ⟨by decide +kernel, by decide +kernel,
    [("action", .string "changestate"), ("param", .object (("agentStatus", .int 3) :: parkFields))], ?_, rfl, rfl⟩
  simp [Libraries.read, parkLibraries, lockedDatabase, fromClient, different]

theorem signedIn_readyServer : ∃ user, SignedInAs "1001" user readyServer.manager := by
  have answered : readyServer.manager.getDNbyagentid "1001" = "1001" := by decide +kernel
  have found : (readyServer.manager.dnMap["1001"]?.map DNuser.agentid) = some "1001" := by decide +kernel
  obtain ⟨user, present, carries⟩ := Option.map_eq_some_iff.mp found
  exact ⟨user, by rw [answered]; decide, by rw [answered]; exact present, carries⟩

/-- A message that gives the status in both members is served as asked. -/
theorem changestate_agrees_twice :
    ∃ after, readyServer.handle parkLibraries (fromClient parkTwiceText) = some after ∧
      StatusChanged parkLibraries "1001" .parking readyServer.manager after := by
  obtain ⟨user, signedIn⟩ := signedIn_readyServer
  exact (changestate_agrees_iff requests_parkTwice rfl rfl signedIn).mpr rfl

/-- With the documented members the agent is not parked but logged out: status 0 is stored. -/
theorem parked_agent_not_logged_in :
    ¬ ∀ (lib : Libraries) (server : WSapserver) (message : ClientMessage) (fields : List (String × Json))
      (userId : String) (user : DNuser) (status : AgentStatus),
      Reached lib server → Requests lib message "changestate" fields →
      fields.lookup "userId" = some (.string userId) →
      fields.lookup "state" = some (.string (toString status.code)) → SignedInAs userId user server.manager →
      ∃ after, server.handle lib message = some after ∧
        StatusChanged lib userId status server.manager after := by
  intro claim
  obtain ⟨user, signedIn⟩ := signedIn_readyServer
  have reached : Reached parkLibraries readyServer := ⟨none, "88", _, _, run_finish (by decide +kernel), rfl⟩
  obtain ⟨after, taken, changed⟩ := claim parkLibraries readyServer (fromClient parkText) parkFields "1001" user
    .parking reached requests_park rfl rfl signedIn
  obtain ⟨entry, present, stands⟩ := changed.stored
  have answered : readyServer.manager.getDNbyagentid "1001" = "1001" := by decide +kernel
  have left : ((readyServer.handle parkLibraries (fromClient parkText)).bind fun after =>
      after.manager.dnMap["1001"]?.map fun entry => entry.agentstatus.value) =
        some AgentStatus.noLogin.code := by
    decide +kernel
  rw [taken, Option.bind_some, ← answered, present, Option.map_some, stands] at left
  revert left
  decide

end CallCenter.Verified
