import CallCenter.Verified.Handlers

/-!
# Steps, action by action

`System.step` computes; `Took` says the same as a relation, one constructor for each kind of
action with what must hold for it.  Everything proved about steps goes by cases on `Took`.
-/

namespace CallCenter.Verified

open CallCenter.Foundation CallCenter.Model

inductive Took (lib : Libraries) (before : System) : Action → System → Prop where
  | signin (request : SigninRequest) (ambient : Ambient) :
    Took lib before (.signin request ambient) { before with
      manager := (before.manager.signin lib request ambient).2
      history := System.recordSignin request (before.manager.signin lib request ambient).1 before.history }
  | signout (agentId : String) (ambient : Ambient) :
    Took lib before (.signout agentId ambient)
      { before with manager := (before.manager.signout lib agentId ambient).2 }
  | setDNstatus (agentId : String) (agentStatus : Int) (ambient : Ambient) :
    Took lib before (.setDNstatus agentId agentStatus ambient)
      { before with manager := (before.manager.setDNstatus lib agentId agentStatus ambient).2 }
  | resetDNinfo (agentid : String) (departmentId : Int) (departmentName userName : String) (ambient : Ambient) :
    Took lib before (.resetDNinfo agentid departmentId departmentName userName ambient) { before with
      manager := (before.manager.resetDNinfo agentid departmentId departmentName userName ambient).2 }
  | reloaddb {answers : DatabaseAnswers} {manager : ManagerDN}
    (reloaded : before.manager.reloaddb lib answers = .ok manager) :
    Took lib before (.reloaddb answers) { before with manager }
  | loadDNSet {opened : Bool} {ambient : Ambient} {manager : ManagerDN}
    (loaded : before.manager.loadDNSet lib opened ambient = .ok manager) :
    Took lib before (.loadDNSet opened ambient) { before with manager }
  | event {event : Event} {ambient : Ambient} {manager : ManagerDN}
    (processed : before.manager.processEvent event ambient = .ok manager) :
    Took lib before (.event event ambient)
      { before with manager, history := System.recordEvent event before.history }
  | incoming {incoming : Incoming} {ambient : Ambient} {kept : Option Nat} {manager : ManagerDN}
    (accepted : before.manager.nwayccCallback incoming ambient = .ok (kept, manager)) :
    Took lib before (.incoming incoming ambient)
      { before with manager, closing := before.closing ++ kept.toList }
  | release {handle : Nat} (closes : handle ∈ before.closing) :
    Took lib before (.release handle) { before with
      manager := before.manager.deleteHandle handle
      closing := before.closing.erase handle }
  | acdGet {session : IvrSession} {acdqueue : AcdQueue} (stands : before.acd = .idle)
    (got : before.manager.acdqueue.get = some (session, acdqueue)) :
    Took lib before .acdGet
      { before with manager := { before.manager with acdqueue }, acd := .serving session }
  | acdScan {session : IvrSession} {ambient : Ambient} (stands : before.acd = .serving session) :
    Took lib before (.acdScan ambient) (before.firstScan session ambient)
  | acdWake {session : IvrSession} {picker : Picker} {ambient : Ambient}
    (stands : before.acd = .waiting session picker) (posted : 0 < before.manager.readyDNsema) :
    Took lib before (.acdWake ambient) { before with
      manager := { before.manager with readyDNsema := before.manager.readyDNsema - 1 }
      acd := System.afterPass session picker ambient
        { before.manager with readyDNsema := before.manager.readyDNsema - 1 } }
  | acdDispatch {session : IvrSession} {dn : String} {bridged : Bool} {ambient : Ambient}
    (stands : before.acd = .selected session dn) :
    Took lib before (.acdDispatch bridged ambient) (before.dispatch lib session dn bridged ambient)
  | createTask (taskid companyid : String) :
    Took lib before (.createTask taskid companyid)
      { before with tasks := Model.createTask taskid companyid before.tasks }
  | setCallrate (taskid : String) (rate : Int) :
    Took lib before (.setCallrate taskid rate)
      { before with tasks := Model.setCallrate taskid rate before.tasks }
  | taskBegin {index : Nat} {answer : Answer OutcallInfo} {task : CallTask}
    (at? : before.tasks[index]? = some task) (stands : task.stand = .start) :
    Took lib before (.taskBegin index answer)
      (before.updateTask index (CallTask.begin answer (before.manager.getWaitingDN task.company)))
  | taskPass {index : Nat} {channel : String} {task : CallTask}
    (at? : before.tasks[index]? = some task) (stands : task.stand = .loop) :
    Took lib before (.taskPass index channel)
      (before.updateTask index (CallTask.pass before.manager.prefixNumber channel))
  | taskWake {index : Nat} {task : CallTask}
    (at? : before.tasks[index]? = some task) (stands : task.stand = .waiting)
    (posted : 0 < before.manager.calloutsema) :
    Took lib before (.taskWake index)
      { before.updateTask index fun task => { task with stand := .recount } with
        manager := { before.manager with calloutsema := before.manager.calloutsema - 1 } }
  | taskRecount {index : Nat} {task : CallTask}
    (at? : before.tasks[index]? = some task) (stands : task.stand = .recount) :
    Took lib before (.taskRecount index)
      (before.updateTask index (CallTask.countAgain (before.manager.getWaitingDN task.company)))

theorem taskAt_eq_some {system : System} {index : Nat} {stand : TaskStand} {task : CallTask}
    (found : system.taskAt index stand = some task) :
    system.tasks[index]? = some task ∧ task.stand = stand := by
  simpa [System.taskAt, Option.filter_eq_some_iff] using found

/-- A step is an action taken. -/
theorem took_of_step {lib : Libraries} {before after : System} {action : Action}
    (taken : before.step lib action = some after) : Took lib before action after := by
  cases action with
  | signin request ambient =>
    obtain rfl := Option.some.inj taken
    exact .signin request ambient
  | signout agentId ambient =>
    obtain rfl := Option.some.inj taken
    exact .signout agentId ambient
  | setDNstatus agentId agentStatus ambient =>
    obtain rfl := Option.some.inj taken
    exact .setDNstatus agentId agentStatus ambient
  | resetDNinfo agentid departmentId departmentName userName ambient =>
    obtain rfl := Option.some.inj taken
    exact .resetDNinfo agentid departmentId departmentName userName ambient
  | reloaddb answers =>
    obtain ⟨_, reloaded, rfl⟩ := toOption_map_eq_some taken
    exact .reloaddb reloaded
  | loadDNSet opened ambient =>
    obtain ⟨_, loaded, rfl⟩ := toOption_map_eq_some taken
    exact .loadDNSet loaded
  | event event ambient =>
    obtain ⟨_, processed, rfl⟩ := toOption_map_eq_some taken
    exact .event processed
  | incoming incoming ambient =>
    obtain ⟨⟨_, _⟩, accepted, rfl⟩ := toOption_map_eq_some taken
    exact .incoming accepted
  | release handle =>
    simp only [System.step, Option.ite_none_right_eq_some, Option.some.injEq] at taken
    obtain ⟨closes, rfl⟩ := taken
    exact .release closes
  | acdGet =>
    simp only [System.step] at taken
    split at taken
    · rename_i stands
      obtain ⟨⟨_, _⟩, got, rfl⟩ := Option.map_eq_some_iff.mp taken
      exact .acdGet stands got
    · contradiction
  | acdScan ambient =>
    simp only [System.step] at taken
    split at taken
    · rename_i stands
      obtain rfl := Option.some.inj taken
      exact .acdScan stands
    · contradiction
  | acdWake ambient =>
    simp only [System.step] at taken
    split at taken
    · rename_i stands
      simp only [Option.ite_none_right_eq_some, Option.some.injEq] at taken
      obtain ⟨posted, rfl⟩ := taken
      exact .acdWake stands posted
    · contradiction
  | acdDispatch bridged ambient =>
    simp only [System.step] at taken
    split at taken
    · rename_i stands
      obtain rfl := Option.some.inj taken
      exact .acdDispatch stands
    · contradiction
  | createTask taskid companyid =>
    obtain rfl := Option.some.inj taken
    exact .createTask taskid companyid
  | setCallrate taskid rate =>
    obtain rfl := Option.some.inj taken
    exact .setCallrate taskid rate
  | taskBegin index answer =>
    obtain ⟨_, found, rfl⟩ := Option.map_eq_some_iff.mp taken
    exact .taskBegin (taskAt_eq_some found).1 (taskAt_eq_some found).2
  | taskPass index channel =>
    obtain ⟨_, found, rfl⟩ := Option.map_eq_some_iff.mp taken
    exact .taskPass (taskAt_eq_some found).1 (taskAt_eq_some found).2
  | taskWake index =>
    simp only [System.step] at taken
    split at taken
    · rename_i found
      simp only [Option.ite_none_right_eq_some, Option.some.injEq] at taken
      obtain ⟨posted, rfl⟩ := taken
      exact .taskWake (taskAt_eq_some found).1 (taskAt_eq_some found).2 posted
    · contradiction
  | taskRecount index =>
    obtain ⟨_, found, rfl⟩ := Option.map_eq_some_iff.mp taken
    exact .taskRecount (taskAt_eq_some found).1 (taskAt_eq_some found).2

/-! ## Steps by what they touch -/

/-- The action is a request of an agent, or restores agents from disk. -/
def concernsAgents : Action → Bool
  | .signin _ _ | .signout _ _ | .setDNstatus _ _ _ | .resetDNinfo _ _ _ _ _ | .loadDNSet _ _ => true
  | _ => false

/-- Such a step changes nothing but the agents and the record of sign-ins. -/
theorem agentsOnly_step {lib : Libraries} {before after : System} {action : Action}
    (concerns : concernsAgents action = true) (taken : before.step lib action = some after) :
    ∃ manager signedIn, AgentsOnly before.manager manager ∧
      after = { before with manager, history := { before.history with signedIn } } := by
  cases took_of_step taken with
  | signin request ambient =>
    refine ⟨_, (System.recordSignin request
      (before.manager.signin lib request ambient).1 before.history).signedIn,
      signin_agentsOnly lib request ambient before.manager, ?_⟩
    unfold System.recordSignin
    split <;> rfl
  | signout agentId ambient => exact ⟨_, _, signout_agentsOnly lib agentId ambient before.manager, rfl⟩
  | setDNstatus agentId agentStatus ambient =>
    exact ⟨_, _, setDNstatus_agentsOnly lib agentId agentStatus ambient before.manager, rfl⟩
  | resetDNinfo agentid departmentId departmentName userName ambient =>
    exact ⟨_, _, resetDNinfo_agentsOnly agentid departmentId departmentName userName ambient before.manager, rfl⟩
  | loadDNSet loaded => exact ⟨_, _, loadDNSet_agentsOnly loaded, rfl⟩
  | _ => contradiction

/-- The action comes from the telephone network: an event, or a call that comes in. -/
def reportsCall : Action → Bool
  | .event _ _ | .incoming _ _ => true
  | _ => false

/-- Nothing else touches the records and the sessions of the calls. -/
theorem callStores_step {lib : Libraries} {before after : System} {action : Action}
    (silent : reportsCall action = false) (taken : before.step lib action = some after) :
    after.manager.callInfoMap = before.manager.callInfoMap ∧
      after.manager.callRecords = before.manager.callRecords ∧
        after.manager.ivrmap = before.manager.ivrmap := by
  by_cases concerns : concernsAgents action = true
  · obtain ⟨_, _, ⟨_, _, _, rfl⟩, rfl⟩ := agentsOnly_step concerns taken
    exact ⟨rfl, rfl, rfl⟩
  cases took_of_step taken with
  | signin | signout | setDNstatus | resetDNinfo | loadDNSet => exact absurd rfl concerns
  | event | incoming => contradiction
  | reloaddb reloaded =>
    obtain ⟨_, _, _, _, _, rfl⟩ := reloaddb_ok reloaded
    exact ⟨rfl, rfl, rfl⟩
  | @acdDispatch session dn bridged ambient stands =>
    obtain ⟨_, _, ⟨_, _, _, rfl⟩, shape⟩ := inlineTransformAgent_eq lib dn session ambient before.manager
    simp only [System.dispatch, shape, and_self]
  | _ => exact ⟨rfl, rfl, rfl⟩

/-- The call whose DESTROY is processed. -/
def destroyedCall : Action → Option String
  | .event event _ => if event.eventId = .channelDestroy then some event.uuid else none
  | _ => none

theorem history_destroyed_step {lib : Libraries} {before after : System} {action : Action}
    (taken : before.step lib action = some after) :
    after.history.destroyed = before.history.destroyed ++ (destroyedCall action).toList := by
  cases took_of_step taken with
  | signin request ambient =>
    simp only [System.recordSignin, destroyedCall, Option.toList_none, List.append_nil]
    split <;> rfl
  | event processed =>
    simp only [System.recordEvent, destroyedCall]
    split <;> simp
  | _ => exact (List.append_nil _).symm

/-! ## A small installation

The inputs of the concrete runs: one company with two extensions, whose first node hands every
caller to an agent. -/

/-- The text `toStyledString` makes of an object of ints, bools and plain strings. -/
def styledObject (members : List (String × Json)) : String :=
  let line := fun member : String × Json =>
    "   \"" ++ member.1 ++ "\" : " ++ match member.2 with
      | .int value => toString value
      | .bool value => if value then "true" else "false"
      | .string value => "\"" ++ value ++ "\""
      | _ => "null"
  "\x7b\n" ++ ",\n".intercalate (members.map line) ++ "\n\x7d\n"

/-- Libraries for runs that parse nothing, with a `data.db` that another process keeps locked. -/
def lockedDatabase : Libraries where
  parse _ := none
  toStyledString
    | .object members => styledObject members
    | _ => ""
  sqlite3Exec _ _ := none

def noon : Ambient where
  now := 1557230400
  formatTime := "2019-05-07 12:00:00"
  currentTime := "2019-05-07_12:00:00"
  junk _ := 0

def companyRoutes : List Route :=
  [{ group := "4001", agent := "1001", groupId := "1", gataname := "ingw", prefixNumber := "88" },
   { group := "4001", agent := "1002", groupId := "1", gataname := "ingw", prefixNumber := "88" }]

/-- The configuration is loaded, with these routes and these nodes. -/
def configured (routes : List Route) (nodes : List IvrNode) : Action :=
  .reloaddb { routes := { rows := routes }, logins := { rows := [] }, rules := { rows := [] },
              nodes := { rows := nodes } }

/-- Every caller of the company goes to an agent at once. -/
def straightToAgent : List IvrNode := [{ companyId := 1, nodeId := 1, recordfile := ivrAgnetMsg }]

/-- An agent signs in under its own extension, ready. -/
def readyAgent (dn : String) : Action :=
  .signin { agentId := dn, agentDn := dn, agentPwd := "", autoAnswer := false, fcSignin := false,
            statusChangetype := AgentStatus.waitingReady.code, skills := "sales", departmentId := 1,
            departmentName := "sales", userName := dn, peerIP := "10.0.0.7" } noon

/-- A customer calls the gate number of the company. -/
def customerCalls (uuid gate : String) : Action :=
  .incoming
    { attached := true, connected := true
      infoEvent :=
        { eventId := .other
          headers := [("Caller-Unique-ID", uuid), ("Caller-Caller-ID-Number", "13800000000"),
            ("Caller-Destination-Number", gate)] } } noon

/-- FreeSWITCH reports something about a channel. -/
def reported (eventId : EventId) (uuid caller destination : String) : Action :=
  .event
    { eventId
      headers := [("Caller-Unique-ID", uuid), ("Caller-Caller-ID-Number", caller),
        ("Caller-Destination-Number", destination)] } noon

end CallCenter.Verified
