import CallCenter.Model.WsServer
import CallCenter.Verified.Mirror
import CallCenter.Verified.Reloading

/-!
# What clients ask for

Every message to the WebSocket server asks for at most one action of the system, and the handler
takes exactly that step (`callapclient_carriesOut`), so what holds of every step of the system holds
of every message.  `influence_of_clients` says what can be asked for without a password.
-/

namespace CallCenter.Verified

open Std (ExtTreeMap)
open CallCenter.Foundation CallCenter.Model
open CallCenter.Model.WSapserver

/-! ## Messages as actions -/

/-- The action a branch of `on_callapclient` asks the system for, if it asks for one. -/
def asks (message : ClientMessage) (jsonparam : Json) : WsapAction → Except Fault (Option Action)
  | .resetConfig => do
    let acdpassword ← stringField "acdpassword" jsonparam
    pure (acdpassword.map fun _ => .reloaddb message.reload)
  | .signIn => do
    match ← stringField "userId" jsonparam, ← stringField "password" jsonparam with
    | some userId, some password =>
      match getJavaUserInfo (message.users userId) with
      | (true, userinfo) =>
        pure (some (.signin (signinRequest userId password userinfo message.remoteEndpoint) message.ambient))
      | (false, _) => pure none
    | _, _ => pure none
  | .signOut => do
    let userId ← stringField "userId" jsonparam
    pure (userId.map fun userId => .signout userId message.ambient)
  | .setAgentStatus => do
    match ← stringField "userId" jsonparam, ← stringField "state" jsonparam with
    | some agentId, some _ =>
      let agentStatus ← (← jsonparam.member "agentStatus").asInt
      pure (some (.setDNstatus agentId agentStatus message.ambient))
    | _, _ => pure none
  | .reset => do
    match ← stringField "userId" jsonparam with
    | some userId =>
      match getJavaUserInfo (message.users userId) with
      | (true, userinfo) =>
        pure (some (.resetDNinfo userId userinfo.departmentId "" userinfo.userName message.ambient))
      | (false, _) => pure none
    | none => pure none
  | .getusers | .outboundCall | .heartbeat => do
    let _ ← stringField "userId" jsonparam
    pure none
  | _ => pure none

/-- The action a message asks for. -/
def requested (lib : Libraries) (message : ClientMessage) : Except Fault (Option Action) := do
  match ← lib.read message.payload with
  | none => pure none
  | some root =>
    match ← stringField "action" root with
    | some action =>
      match ← root.member "param" with
      | .null => pure none
      | jsonparam => asks message jsonparam (getcmdType action)
    | none => pure none

/-- What a well-formed request asks for. -/
theorem requested_of_object {lib : Libraries} {message : ClientMessage} {members fields : List (String × Json)}
    {action : String} (parsed : lib.read message.payload = .ok (some (.object members)))
    (named : members.lookup "action" = some (.string action))
    (given : members.lookup "param" = some (.object fields)) :
    requested lib message = asks message (.object fields) (getcmdType action) := by
  rw [requested, parsed]
  simp only [bind, Except.bind, stringField, Json.member, named, given, Option.getD_some]
  rfl

/-- The system after it was asked for an action, or for nothing. -/
def carryOut (lib : Libraries) (system : System) : Option Action → Option System
  | some action => system.step lib action
  | none => some system

/-- A handler does what was asked of the manager, and fails where reading the message fails. -/
def CarriesOut (lib : Libraries) (system : System) (asked : Except Fault (Option Action))
    (outcome : Except Fault (List Json × ManagerDN)) : Prop :=
  outcome.toOption.map Prod.snd = (asked.toOption.bind (carryOut lib system)).map System.manager

section Branches

variable (lib : Libraries) (message : ClientMessage) (jsonparam : Json) (system : System)

theorem resetConfig_carriesOut :
    CarriesOut lib system (asks message jsonparam .resetConfig)
      (resetConfig lib message jsonparam system.manager) := by
  unfold CarriesOut asks resetConfig
  cases stringField "acdpassword" jsonparam with
  | error fault => rfl
  | ok acdpassword =>
    cases acdpassword with
    | none => rfl
    | some _ =>
      show _ = ((system.manager.reloaddb lib message.reload).toOption.map fun manager =>
        { system with manager }).map System.manager
      cases system.manager.reloaddb lib message.reload with
      | error fault => simp [bind, Except.bind, Except.toOption]
      | ok manager => simp [bind, Except.bind, Except.toOption, pure, Except.pure]

theorem signIn_carriesOut :
    CarriesOut lib system (asks message jsonparam .signIn)
      (signIn lib message jsonparam system.manager) := by
  unfold CarriesOut asks signIn
  cases stringField "userId" jsonparam with
  | error fault => rfl
  | ok userId =>
    cases stringField "password" jsonparam with
    | error fault => rfl
    | ok password =>
      cases userId <;> cases password <;> try rfl
      rename_i userId password
      dsimp only [bind, Except.bind]
      cases getJavaUserInfo (message.users userId) with
      | mk found userinfo => cases found <;> rfl

theorem signOut_carriesOut :
    CarriesOut lib system (asks message jsonparam .signOut)
      (signOut lib message jsonparam system.manager) := by
  unfold CarriesOut asks signOut
  cases stringField "userId" jsonparam with
  | error fault => rfl
  | ok userId => cases userId <;> rfl

theorem setAgentStatus_carriesOut :
    CarriesOut lib system (asks message jsonparam .setAgentStatus)
      (setAgentStatus lib message jsonparam system.manager) := by
  unfold CarriesOut asks setAgentStatus
  cases stringField "userId" jsonparam with
  | error fault => rfl
  | ok userId =>
    cases stringField "state" jsonparam with
    | error fault => rfl
    | ok state =>
      cases userId <;> cases state <;> try rfl
      cases jsonparam.member "agentStatus" with
      | error fault => rfl
      | ok value =>
        dsimp only [bind, Except.bind]
        cases value.asInt <;> rfl

theorem reset_carriesOut :
    CarriesOut lib system (asks message jsonparam .reset)
      (reset message jsonparam system.manager) := by
  unfold CarriesOut asks reset
  cases stringField "userId" jsonparam with
  | error fault => rfl
  | ok userId =>
    cases userId with
    | none => rfl
    | some userId =>
      dsimp only [bind, Except.bind]
      cases getJavaUserInfo (message.users userId) with
      | mk found userinfo => cases found <;> rfl

theorem getusers_carriesOut :
    CarriesOut lib system (asks message jsonparam .getusers)
      (getusers message jsonparam system.manager) := by
  unfold CarriesOut asks getusers stringField
  -- one value is read for all three fields, so it is an object for all of them or for none
  cases jsonparam with
  | null => rfl
  | object members =>
    dsimp only [Json.member, bind, Except.bind, Except.map]
    split <;> rfl
  | _ => rfl

theorem heartbeat_carriesOut :
    CarriesOut lib system (asks message jsonparam .heartbeat)
      (heartbeat message jsonparam system.manager) := by
  unfold CarriesOut asks heartbeat
  cases stringField "userId" jsonparam with
  | error fault => rfl
  | ok userId => cases userId <;> rfl

theorem outboundCall_carriesOut :
    CarriesOut lib system (asks message jsonparam .outboundCall)
      (outboundCall message jsonparam system.manager) := by
  unfold CarriesOut asks outboundCall heartbeat
  cases stringField "userId" jsonparam with
  | error fault => rfl
  | ok userId => cases userId <;> rfl

theorem perform_carriesOut (action : WsapAction) :
    CarriesOut lib system (asks message jsonparam action)
      (perform lib message jsonparam system.manager action) := by
  cases action with
  | resetConfig => exact resetConfig_carriesOut lib message jsonparam system
  | signIn => exact signIn_carriesOut lib message jsonparam system
  | signOut => exact signOut_carriesOut lib message jsonparam system
  | setAgentStatus => exact setAgentStatus_carriesOut lib message jsonparam system
  | getusers => exact getusers_carriesOut lib message jsonparam system
  | reset => exact reset_carriesOut lib message jsonparam system
  | outboundCall => exact outboundCall_carriesOut lib message jsonparam system
  | heartbeat => exact heartbeat_carriesOut lib message jsonparam system
  | _ => rfl

end Branches

/-- Handling a message is the step of the system that the message asks for. -/
theorem callapclient_carriesOut (lib : Libraries) (message : ClientMessage) (system : System) :
    CarriesOut lib system (requested lib message) (onCallapclient lib message system.manager) := by
  unfold requested onCallapclient
  cases lib.read message.payload with
  | error fault => rfl
  | ok parsed =>
    cases parsed with
    | none => rfl
    | some root =>
      dsimp only [bind, Except.bind]
      cases stringField "action" root with
      | error fault => rfl
      | ok action =>
        cases action with
        | none => rfl
        | some action =>
          dsimp only
          cases root.member "param" with
          | error fault => rfl
          | ok jsonparam =>
            cases jsonparam with
            | null => rfl
            | _ => exact perform_carriesOut lib message _ system (getcmdType action)

/-! ## Messages that act -/

/-- The system would act on what is asked for: the login is of a routed extension, the agent that
is named is signed in. -/
def ActedOn (manager : ManagerDN) : Action → Prop
  | .signin request _ => manager.checkvaildDN request.agentDn = true
  | .signout agentId _ => manager.getDNbyagentid agentId ≠ ""
  | .setDNstatus agentId _ _ => manager.getDNbyagentid agentId ≠ ""
  | .resetDNinfo agentid _ _ _ _ => agentid ∈ manager.dnMap
  | _ => True

theorem step_of_refused (lib : Libraries) {system : System} {action : Action}
    (refused : ¬ ActedOn system.manager action) : system.step lib action = some system := by
  cases action with
  | signin request ambient =>
    have unrouted : system.manager.checkvaildDN request.agentDn ≠ true := refused
    simp [System.step, ManagerDN.signin, unrouted, System.recordSignin]
  | signout agentId ambient =>
    have unknown : system.manager.getDNbyagentid agentId = "" := not_not.mp refused
    simp [System.step, ManagerDN.signout, unknown]
  | setDNstatus agentId agentStatus ambient =>
    have unknown : system.manager.getDNbyagentid agentId = "" := not_not.mp refused
    simp [System.step, ManagerDN.setDNstatus, unknown]
  | resetDNinfo agentid departmentId departmentName userName ambient =>
    have absent : system.manager.dnMap[agentid]? = none := ExtTreeMap.getElem?_eq_none refused
    simp [System.step, ManagerDN.resetDNinfo, absent]
  | _ => exact absurd trivial refused

/-- Nothing the message asks for is acted on, and reading it fails nowhere. -/
def Powerless (lib : Libraries) (manager : ManagerDN) (message : ClientMessage) : Prop :=
  message.payload ≠ "stop-listening" ∧
    ∃ asked, requested lib message = .ok asked ∧ ∀ action ∈ asked, ¬ ActedOn manager action

/-- What a client without a password should not change. -/
structure Untouched (before after : WSapserver) : Prop where
  dnMap : after.manager.dnMap = before.manager.dnMap
  presisted : after.manager.presisted = before.manager.presisted
  configuration : configuration after.manager = configuration before.manager
  listening : after.listening = before.listening

theorem onCallapclient_of_powerless {lib : Libraries} {manager : ManagerDN} {message : ClientMessage}
    (powerless : Powerless lib manager message) :
    ∃ responses, onCallapclient lib message manager = .ok (responses, manager) := by
  obtain ⟨_, asked, requests, refused⟩ := powerless
  have handled : (onCallapclient lib message manager).toOption.map Prod.snd = some manager := by
    have carried := callapclient_carriesOut lib message { manager }
    rw [CarriesOut, requests] at carried
    rw [carried]
    cases asked with
    | none => rfl
    | some action =>
      show ((System.step lib { manager } action).map System.manager) = some manager
      rw [step_of_refused lib (refused action rfl)]
      rfl
  cases outcome : onCallapclient lib message manager with
  | error fault =>
    rw [outcome] at handled
    contradiction
  | ok result =>
    rw [outcome] at handled
    obtain rfl := Option.some.inj handled
    exact ⟨result.1, rfl⟩

/-- A powerless message is answered and leaves the manager as it is. -/
theorem handle_of_powerless {lib : Libraries} {server : WSapserver} {message : ClientMessage}
    (powerless : Powerless lib server.manager message) :
    ∃ after, server.handle lib message = some after ∧ after.manager = server.manager ∧
      after.listening = server.listening := by
  obtain ⟨responses, handled⟩ := onCallapclient_of_powerless powerless
  by_cases blank : message.payload = ""
  · exact ⟨server, by simp [handle, onMessage, blank, Except.toOption], rfl, rfl⟩
  · exact ⟨{ server with sent := server.sent ++ responses },
      by simp [handle, onMessage, powerless.1, blank, handled, Except.toOption], rfl, rfl⟩

theorem run_of_powerless {lib : Libraries} {messages : List ClientMessage} {server : WSapserver}
    (powerless : ∀ message ∈ messages, Powerless lib server.manager message) :
    ∃ after, Run (Steps (handle lib)) server messages after ∧ after.manager = server.manager ∧
      after.listening = server.listening := by
  induction messages generalizing server with
  | nil => exact ⟨server, .done server, rfl, rfl⟩
  | cons message messages inductionHypothesis =>
    obtain ⟨here, others⟩ := List.forall_mem_cons.mp powerless
    obtain ⟨middle, taken, sameManager, sameListening⟩ := handle_of_powerless here
    obtain ⟨after, run, lastManager, lastListening⟩ := inductionHypothesis (sameManager ▸ others)
    exact ⟨after, .next taken run, lastManager.trans sameManager, lastListening.trans sameListening⟩

/-! ## Messages that name an agent -/

/-- The extension whose agent a request that carries no password is about. -/
def namedAgent (manager : ManagerDN) : Action → Option String
  | .signout agentId _ => some (manager.getDNbyagentid agentId)
  | .setDNstatus agentId _ _ => some (manager.getDNbyagentid agentId)
  | .resetDNinfo agentid _ _ _ _ => some agentid
  | _ => none

theorem configuration_signout (lib : Libraries) (agentId : String) (ambient : Ambient) (manager : ManagerDN) :
    configuration (manager.signout lib agentId ambient).2 = configuration manager := by
  simp only [ManagerDN.signout]
  split <;> rfl

theorem configuration_setDNstatus (lib : Libraries) (agentId : String) (agentStatus : Int) (ambient : Ambient)
    (manager : ManagerDN) :
    configuration (manager.setDNstatus lib agentId agentStatus ambient).2 = configuration manager := by
  simp only [ManagerDN.setDNstatus, ManagerDN.setagnetStatus, ManagerDN.signalIfReady]
  split
  · split <;> rfl
  · rfl

theorem configuration_resetDNinfo (agentid : String) (departmentId : Int) (departmentName userName : String)
    (ambient : Ambient) (manager : ManagerDN) :
    configuration (manager.resetDNinfo agentid departmentId departmentName userName ambient).2 =
      configuration manager := by
  simp only [ManagerDN.resetDNinfo]
  split <;> rfl

/-- The entry a change is about. -/
def AgentChange.agent? : AgentChange → Option String
  | .unchanged => none
  | .signedIn dn _ | .touched dn _ _ | .adjusted dn _ | .signedOut dn => some dn

theorem AgentChange.getElem?_apply_of_ne (map : ExtTreeMap String DNuser) {change : AgentChange}
    {other : String}
    (elsewhere : ∀ dn ∈ change.agent?, other ≠ dn) : (change.apply map)[other]? = map[other]? := by
  rw [AgentChange.getElem?_apply]
  cases change with
  | unchanged => rfl
  | _ => exact if_neg (elsewhere _ rfl).symm

theorem agentChange_of_named {system : System} {action : Action} {dn : String}
    (names : namedAgent system.manager action = some dn) :
    ∀ key ∈ (agentChange system action).agent?, key = dn := by
  intro key about
  have changes := changes_agentChange system action
  generalize agentChange system action = change at changes about
  cases changes with
  | signedOut | statusSet | reset => exact (Option.some.inj about).symm.trans (Option.some.inj names)
  | unchanged | signedIn | signedInAgain | ended | answered | dispatched => contradiction

/-- The named agent is the only one a request changes. -/
theorem step_of_named {lib : Libraries} {before after : System} {action : Action} {dn : String}
    (names : namedAgent before.manager action = some dn) (taken : before.step lib action = some after) :
    configuration after.manager = configuration before.manager ∧
      ∀ other, other ≠ dn → after.manager.dnMap[other]? = before.manager.dnMap[other]? := by
  have others (fresh : restores before action = false) (other : String) (different : other ≠ dn) :
      after.manager.dnMap[other]? = before.manager.dnMap[other]? := by
    rw [step_agents taken fresh]
    refine AgentChange.getElem?_apply_of_ne _ fun key about => ?_
    rw [agentChange_of_named names key about]
    exact different
  cases action with
  | signout agentId ambient =>
    refine ⟨?_, others rfl⟩
    rw [← Option.some.inj taken]
    exact configuration_signout lib agentId ambient before.manager
  | setDNstatus agentId agentStatus ambient =>
    refine ⟨?_, others rfl⟩
    rw [← Option.some.inj taken]
    exact configuration_setDNstatus lib agentId agentStatus ambient before.manager
  | resetDNinfo agentid departmentId departmentName userName ambient =>
    refine ⟨?_, others rfl⟩
    rw [← Option.some.inj taken]
    exact configuration_resetDNinfo agentid departmentId departmentName userName ambient before.manager
  | _ => contradiction

/-! ### The rows of the other agents -/

/-- The table without the rows of an extension. -/
def otherRows (dn : String) (table : DnuserTable) : DnuserTable :=
  table.map fun rows => rows.filter fun row => row.1 ≠ dn

/-- The row of the agent that a request names can be deleted and written: the agent is signed in under its
extension, which holds no quote, and so does the row that is written, if any. -/
structure RowFits (lib : Libraries) (system : System) (dn : String) (action : Action) : Prop where
  table : system.manager.presisted.isSome = true
  own : dn ≠ "" → ∃ user, system.manager.dnMap[dn]? = some user ∧ user.dn = dn
  name : Quotable dn
  writable : ∀ user ∈ storedAgent system action, Writable lib user

theorem otherRows_delete {lib : Libraries} (copies : KeepsCopies lib) {user : DNuser} (name : Quotable user.dn)
    {table : DnuserTable} (there : table.isSome = true) :
    otherRows user.dn (deleteTable lib user table).2 = otherRows user.dn table := by
  obtain ⟨rows, rfl⟩ := Option.isSome_iff_exists.mp there
  rw [copies.deleteTable name, otherRows, otherRows, Option.map_some, Option.map_some, List.filter_filter]
  simp only [Bool.and_self]

theorem otherRows_changestate {lib : Libraries} (copies : KeepsCopies lib) {user : DNuser}
    (storable : Storable user.dn user) {table : DnuserTable} (there : table.isSome = true) :
    otherRows user.dn (changestate lib user table).2 = otherRows user.dn table := by
  obtain ⟨rows, rfl⟩ := Option.isSome_iff_exists.mp there
  have ownRow : ¬ (persisted lib (user.dn, user)).1 ≠ user.dn := not_not.mpr rfl
  rw [changestate, storable.deleteTable copies, storable.insertTable copies, otherRows, otherRows, Option.map_some,
    Option.map_some, List.filter_append, List.filter_filter, List.filter_singleton, decide_eq_false ownRow]
  simp only [Bool.and_self, cond_false, List.append_nil]

/-- A request that names an agent leaves the rows of the others alone. -/
theorem rows_of_named {lib : Libraries} (copies : KeepsCopies lib) {before after : System} {action : Action}
    {dn : String} (names : namedAgent before.manager action = some dn) (fits : RowFits lib before dn action)
    (taken : before.step lib action = some after) :
    otherRows dn after.manager.presisted = otherRows dn before.manager.presisted := by
  cases action with
  | signout agentId ambient =>
    obtain rfl := Option.some.inj names
    obtain rfl := Option.some.inj taken
    simp only [ManagerDN.signout]
    split
    · rename_i named
      obtain ⟨user, found, own⟩ := fits.own named
      have name := fits.name
      have deleted := @otherRows_delete lib copies user (own ▸ name) _ fits.table
      rw [own] at deleted
      simp only [found, Option.getD_some]
      exact deleted
    · rfl
  | setDNstatus agentId agentStatus ambient =>
    obtain rfl := Option.some.inj names
    obtain rfl := Option.some.inj taken
    simp only [ManagerDN.setDNstatus]
    split
    · rename_i named
      obtain ⟨user, found, own⟩ := fits.own named
      have written := (fits.writable (user.setagnetStatus agentStatus) (by simp [storedAgent, named, found])).1
      have stored : (before.manager.setagnetStatus (before.manager.getDNbyagentid agentId) agentStatus ambient).dnMap[
          before.manager.getDNbyagentid agentId]? = some (user.setagnetStatus agentStatus) := by
        rw [setagnetStatus_dnMap, OrderedMap.subscript_of_mem found, ExtTreeMap.getElem?_modify]
        simp [found]
      have changed := @otherRows_changestate lib copies (user.setagnetStatus agentStatus) written _ fits.table
      rw [show (user.setagnetStatus agentStatus).dn = _ from own] at changed
      simp only [ManagerDN.changestate, stored, Option.getD_some, setagnetStatus_presisted]
      exact changed
    · rfl
  | resetDNinfo agentid departmentId departmentName userName ambient =>
    obtain rfl := Option.some.inj taken
    simp only [ManagerDN.resetDNinfo]
    split <;> rfl
  | _ => contradiction

/-- What `on_message` does when it returns. -/
theorem handle_cases {lib : Libraries} {server after : WSapserver} {message : ClientMessage}
    (taken : server.handle lib message = some after) :
    (message.payload = "stop-listening" ∧ after = { server with listening := false }) ∨
      (message.payload = "" ∧ after = server) ∨
      ∃ responses manager, onCallapclient lib message server.manager = .ok (responses, manager) ∧
        after = { server with manager, sent := server.sent ++ responses } := by
  unfold handle onMessage at taken
  split at taken
  · rename_i special
    split at taken
    · exact .inl ⟨special, (Option.some.inj taken).symm⟩
    · contradiction
  · split at taken
    · cases outcome : onCallapclient lib message server.manager with
      | error fault =>
        rw [outcome] at taken
        contradiction
      | ok result =>
        rw [outcome] at taken
        exact .inr (.inr ⟨result.1, result.2, rfl, (Option.some.inj taken).symm⟩)
    · rename_i filled
      exact .inr (.inl ⟨not_not.mp filled, (Option.some.inj taken).symm⟩)

/-- A message that is handled is the step it asks for, in any system with that manager. -/
theorem step_of_handled {lib : Libraries} {system : System} {message : ClientMessage} {responses : List Json}
    {manager : ManagerDN} (handled : onCallapclient lib message system.manager = .ok (responses, manager)) :
    ∃ asked next, requested lib message = .ok asked ∧ carryOut lib system asked = some next ∧
      next.manager = manager := by
  have carried := callapclient_carriesOut lib message system
  rw [CarriesOut, handled] at carried
  cases requests : requested lib message with
  | error fault =>
    rw [requests] at carried
    contradiction
  | ok asked =>
    rw [requests] at carried
    obtain ⟨next, taken, same⟩ := Option.map_eq_some_iff.mp carried.symm
    exact ⟨asked, next, rfl, taken, same⟩

/-- Whatever clients send, the manager goes where a run of the system leads. -/
theorem run_of_messages {lib : Libraries} {server after : WSapserver} {messages : List ClientMessage}
    (run : Run (Steps (handle lib)) server messages after) {system : System}
    (same : system.manager = server.manager) :
    ∃ actions finish, Run (Steps (System.step lib)) system actions finish ∧
      finish.manager = after.manager := by
  induction run generalizing system with
  | done server => exact ⟨[], system, .done system, same⟩
  | @next before middle after message messages first rest inductionHypothesis =>
    rcases handle_cases first with ⟨-, rfl⟩ | ⟨-, rfl⟩ | ⟨responses, manager, handled, rfl⟩
    · exact inductionHypothesis same
    · exact inductionHypothesis same
    · rw [← same] at handled
      obtain ⟨asked, next, -, carried, led⟩ := step_of_handled handled
      obtain ⟨actions, finish, later, reached⟩ := inductionHypothesis led
      cases asked with
      | none =>
        obtain rfl := Option.some.inj carried
        exact ⟨actions, finish, later, reached⟩
      | some action => exact ⟨action :: actions, finish, .next carried later, reached⟩

/-! ## The influence of clients -/

/-- Messages that are refused change nothing, whatever their number.  The special command stops the
server and does no more.  A logout, a change of status and a reset are served on a bare user id, and
change nothing but the agent it names and its row. -/
theorem influence_of_clients (lib : Libraries) (server : WSapserver) :
    (∀ messages, (∀ message ∈ messages, Powerless lib server.manager message) →
      ∃ after, Run (Steps (handle lib)) server messages after ∧ Untouched server after) ∧
    (∀ message, message.payload = "stop-listening" → server.listening = true →
      server.handle lib message = some { server with listening := false }) ∧
    (∀ message action dn after, message.payload ≠ "stop-listening" →
      requested lib message = .ok (some action) → namedAgent server.manager action = some dn →
      server.handle lib message = some after →
      after.listening = server.listening ∧ configuration after.manager = configuration server.manager ∧
        (∀ other, other ≠ dn → after.manager.dnMap[other]? = server.manager.dnMap[other]?) ∧
        (KeepsCopies lib → RowFits lib { manager := server.manager } dn action →
          otherRows dn after.manager.presisted = otherRows dn server.manager.presisted)) := by
  refine ⟨fun messages powerless => ?_, fun message special listens => ?_, ?_⟩
  · obtain ⟨after, run, sameManager, sameListening⟩ := run_of_powerless powerless
    refine ⟨after, run, ?_⟩
    constructor
    · rw [sameManager]
    · rw [sameManager]
    · rw [sameManager]
    · exact sameListening
  · simp [handle, onMessage, special, listens, Except.toOption]
  · intro message action dn after plain requests names taken
    rcases handle_cases taken with ⟨special, -⟩ | ⟨-, rfl⟩ | ⟨responses, manager, handled, rfl⟩
    · exact absurd special plain
    · exact ⟨rfl, rfl, fun _ _ => rfl, fun _ _ => rfl⟩
    · have handled' : onCallapclient lib message (System.manager { manager := server.manager }) =
          .ok (responses, manager) := handled
      obtain ⟨asked, next, asks, carried, rfl⟩ := step_of_handled handled'
      obtain rfl := Except.ok.inj (asks.symm.trans requests)
      obtain ⟨sameConfiguration, others⟩ := step_of_named names carried
      exact ⟨rfl, sameConfiguration, others, fun copies fits => rows_of_named copies names fits carried⟩

/-! ### A client without a password -/

/-- The message names a user together with the password that is stored for it. -/
def CarriesCredentials (lib : Libraries) (manager : ManagerDN) (message : ClientMessage) : Prop :=
  ∃ root jsonparam userId password, lib.parse message.payload = some root ∧
    root.member "param" = .ok jsonparam ∧ stringField "userId" jsonparam = .ok (some userId) ∧
    stringField "password" jsonparam = .ok (some password) ∧
    (manager.agentloginInfo[userId]? = some password ∨
      ∃ row ∈ (message.users userId).rows, row.password = password)

/-- The manager of the server is that of a reachable system. -/
def Reached (lib : Libraries) (server : WSapserver) : Prop :=
  ∃ presisted prefixNumber actions system,
    Run (Steps (System.step lib)) (System.initial presisted prefixNumber) actions system ∧
      server.manager = system.manager

def logoutText : String :=
  "\x7b\x22action\x22:\x22logout\x22,\x22param\x22:\x7b\x22userId\x22:\x221001\x22\x7d\x7d"

def loginText : String :=
  "\x7b\x22action\x22:\x22login\x22,\x22param\x22:\x7b\x22userId\x22:\x221001\x22,\x22password\x22:\x22guess\x22\x7d\x7d"

/-- The libraries, with jsoncpp on the texts of two requests. -/
def clientLibraries : Libraries :=
  { workingLibraries with
    flat_of_parse := fun _ _ _ => rfl
    parse := fun text =>
      if text = logoutText then
        some (.object [("action", .string "logout"), ("param", .object [("userId", .string "1001")])])
      else if text = loginText then
        some (.object [("action", .string "login"),
          ("param", .object [("password", .string "guess"), ("userId", .string "1001")])])
      else parse text }

/-- A row is no request: its text goes on with a line end behind the brace. -/
theorem clientLibraries_keepsCopies : KeepsCopies clientLibraries where
  inserts := workingLibraries_keepsCopies.inserts
  deletes := workingLibraries_keepsCopies.deletes
  prints := workingLibraries_keepsCopies.prints
  parses members some' flat := by
    have row := workingLibraries_keepsCopies.parses members some' flat
    obtain ⟨built, shape, -⟩ := ofMembers_eq members
    have second : (toStyledString (.ofMembers members)).toList[1]? = some '\n' := by
      rw [shape, toStyledString, String.toList_ofList]
      rfl
    have noLogout : toStyledString (.ofMembers members) ≠ logoutText := by
      intro same
      rw [same] at second
      revert second
      decide +kernel
    have noLogin : toStyledString (.ofMembers members) ≠ loginText := by
      intro same
      rw [same] at second
      revert second
      decide +kernel
    show (if toStyledString (.ofMembers members) = logoutText then _
      else if toStyledString (.ofMembers members) = loginText then _ else _) = _
    rw [if_neg noLogout, if_neg noLogin]
    exact row
  empty := by decide +kernel

/-- A text from a client, with empty user tables. -/
def fromClient (payload : String) : ClientMessage where
  payload := payload
  remoteEndpoint := "10.0.0.9:50123"
  users _ := { rows := [] }
  roles _ := { rows := [] }
  reload := fewestCalls.answers
  ambient := noon

/-- The server of a company after some actions. -/
def companyServer (actions : List Action) : WSapserver :=
  startServer (finish (System.step clientLibraries) (System.initial none "88") actions).manager

/-- Two agents are signed in. -/
def signedInServer : WSapserver :=
  companyServer [configured companyRoutes [], readyAgent "1001", readyAgent "1002"]

/-- Each of them has a row. -/
def storedServer : WSapserver :=
  { signedInServer with
    manager := { signedInServer.manager with presisted := some [("1001", "agent"), ("1002", "agent")] } }

theorem requested_logout :
    requested clientLibraries (fromClient logoutText) = .ok (some (.signout "1001" noon)) := by
  rw [@requested_of_object clientLibraries (fromClient logoutText) _ _ _ rfl rfl rfl]
  rfl

/-- `login` is understood, but the user table does not know the agent. -/
theorem requested_login : requested clientLibraries (fromClient loginText) = .ok none := by
  have different : loginText ≠ logoutText := by decide +kernel
  have parsed : clientLibraries.read (fromClient loginText).payload =
      .ok (some (.object [("action", .string "login"),
        ("param", .object [("password", .string "guess"), ("userId", .string "1001")])])) := by
    simp [Libraries.read, clientLibraries, workingLibraries, fromClient, different]
  rw [requested_of_object parsed rfl rfl]
  rfl

/-- A client of a company nobody is signed in to logs an agent out, guesses a password and stops the
server; and where the agent is signed in, the other agent and its row do not see the logout. -/
theorem influence_of_clients_company :
    (∃ after, Run (Steps (handle clientLibraries)) (companyServer [])
        [fromClient logoutText, fromClient loginText] after ∧ Untouched (companyServer []) after) ∧
    (companyServer []).handle clientLibraries (fromClient "stop-listening") =
      some { companyServer [] with listening := false } ∧
    ∃ after, storedServer.handle clientLibraries (fromClient logoutText) = some after ∧
      (∀ other, other ≠ "1001" → after.manager.dnMap[other]? = storedServer.manager.dnMap[other]?) ∧
      otherRows "1001" after.manager.presisted = otherRows "1001" storedServer.manager.presisted := by
  have logoutPlain : logoutText ≠ "stop-listening" := by decide +kernel
  have loginPlain : loginText ≠ "stop-listening" := by decide +kernel
  have nobody : ¬ ActedOn (companyServer []).manager (.signout "1001" noon) := fun signedIn => signedIn rfl
  have influence := influence_of_clients clientLibraries
  refine ⟨(influence _).1 _ ?_, (influence _).2.1 _ rfl rfl, ?_⟩
  · refine List.forall_mem_cons.mpr ⟨⟨logoutPlain, _, requested_logout, ?_⟩, List.forall_mem_singleton.mpr ?_⟩
    · rintro action ⟨⟩
      exact nobody
    · exact ⟨loginPlain, _, requested_login, fun _ asked => absurd asked (Option.not_mem_none _)⟩
  · have taken := @step_finish _ _ (handle clientLibraries) storedServer (fromClient logoutText)
      (by decide +kernel)
    have agent : ManagerDN.getDNbyagentid "1001" storedServer.manager = "1001" := by decide +kernel
    have named : storedServer.manager.dnMap["1001"]?.map DNuser.dn = some "1001" := by decide +kernel
    have unwritten : storedAgent { manager := storedServer.manager } (.signout "1001" noon) = none := rfl
    have fits : RowFits clientLibraries { manager := storedServer.manager } "1001" (.signout "1001" noon) := by
      refine ⟨rfl, fun _ => Option.map_eq_some_iff.mp named, by decide, ?_⟩
      rw [unwritten]
      exact fun _ written => absurd written (Option.not_mem_none _)
    obtain ⟨-, -, others, rows⟩ :=
      (influence storedServer).2.2 (fromClient logoutText) (.signout "1001" noon) "1001" _ logoutPlain requested_logout
        (congrArg some agent) taken
    exact ⟨_, taken, others, rows clientLibraries_keepsCopies fits⟩

/-- A logout, which asks for no password, signs an agent out. -/
theorem unauthenticated_influence :
    ¬ ∀ (lib : Libraries) (server after : WSapserver) (messages : List ClientMessage),
      Reached lib server → (∀ message ∈ messages, ¬ CarriesCredentials lib server.manager message) →
      Run (Steps (handle lib)) server messages after → Untouched server after := by
  intro claim
  have reached : Reached clientLibraries signedInServer :=
    ⟨none, "88", _, _, run_finish (by decide +kernel), rfl⟩
  have run := @run_finish _ _ (handle clientLibraries) signedInServer [fromClient logoutText]
      (by decide +kernel)
  have untouched := claim clientLibraries _ _ _ reached (fun message member => ?_) run
  · have same := congrArg (fun map => map.contains "1001") untouched.dnMap
    revert same
    decide +kernel
  · obtain rfl := List.mem_singleton.mp member
    rintro ⟨root, jsonparam, userId, password, parsed, param, -, given, -⟩
    obtain rfl : .object [("action", .string "logout"), ("param", .object [("userId", .string "1001")])] = root :=
      Option.some.inj parsed
    obtain rfl : .object [("userId", .string "1001")] = jsonparam := Except.ok.inj param
    have missing : none = some password := Except.ok.inj given
    contradiction

end CallCenter.Verified
