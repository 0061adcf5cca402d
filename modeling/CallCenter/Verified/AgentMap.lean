import CallCenter.Verified.AgentChanges

/-!
# Well-formed agents

Every entry of `m_DNmap` should stand under its own extension, come from a sign-in, and have no
member that was never assigned.  Three things break that: restoring agents from disk (their
counters stay unassigned), a sign-in under the empty extension, and the dispatch of a call to an
extension that is not in the map, which `operator[]` creates.  `KeepsAgentMap` excludes them.
-/

namespace CallCenter.Verified

open Std (ExtTreeMap)
open CallCenter.Foundation CallCenter.Model

structure WellFormedEntry (history : History) (dn : String) (user : DNuser) : Prop where
  named : dn ≠ ""
  ownKey : user.dn = dn
  signedIn : dn ∈ history.signedIn
  status : user.agentstatus.assigned = true
  company : user.commpanyid.assigned = true
  calltimes : user.calltimes.assigned = true
  callminiutes : user.callminiutes.assigned = true
  idelminiutes : user.idelminiutes.assigned = true

/-- Every agent is well formed. -/
def WellFormedAgents (system : System) : Prop :=
  ∀ (dn : String) (user : DNuser), system.manager.dnMap[dn]? = some user →
    WellFormedEntry system.history dn user

namespace WellFormedEntry

variable {history : History} {dn : String} {user : DNuser}

theorem later {longer : History} (entry : WellFormedEntry history dn user)
    (grown : dn ∈ history.signedIn → dn ∈ longer.signedIn) : WellFormedEntry longer dn user :=
  { entry with signedIn := grown entry.signedIn }

theorem setagnetStatus (entry : WellFormedEntry history dn user) (status : Int) :
    WellFormedEntry history dn (user.setagnetStatus status) :=
  { entry with status := rfl }

theorem callEnded (entry : WellFormedEntry history dn user) (billsec : String) :
    WellFormedEntry history dn (user.callEnded billsec) :=
  { entry with status := rfl, calltimes := entry.calltimes, callminiutes := entry.callminiutes }

theorem reset (entry : WellFormedEntry history dn user) (departmentId : Int)
    (departmentName userName : String) :
    WellFormedEntry history dn { user with
      departmentId := .assign departmentId
      departmentName, userName
      agentstatus := .assign AgentStatus.waitingReady.code } :=
  { entry with status := rfl }

theorem construct {request : SigninRequest} {ambient : Ambient} {companyid : Int}
    (named : request.agentDn ≠ "") (signedIn : request.agentDn ∈ history.signedIn) :
    WellFormedEntry history request.agentDn
      ((DNuser.construct request ambient).inlineSetcompanyid companyid) where
  named := named
  ownKey := rfl
  signedIn := signedIn
  status := rfl
  company := rfl
  calltimes := rfl
  callminiutes := rfl
  idelminiutes := rfl

end WellFormedEntry

/-- A sign-in under the empty extension, which a route allows. -/
def signsInUnnamed (before : System) : Action → Bool
  | .signin request _ => before.manager.checkvaildDN request.agentDn && request.agentDn == ""
  | _ => false

/-- A dispatch to an extension that is not, or no longer, signed in. -/
def dispatchesUnknown (before : System) : Action → Bool
  | .acdDispatch _ _ => (selectedDN before.acd).any fun dn => (before.manager.dnMap[dn]?).isNone
  | _ => false

/-- The steps that keep the map well formed. -/
def KeepsAgentMap (before : System) (action : Action) : Prop :=
  restores before action = false ∧ signsInUnnamed before action = false ∧
    dispatchesUnknown before action = false

instance (before : System) (action : Action) : Decidable (KeepsAgentMap before action) :=
  inferInstanceAs (Decidable (_ ∧ _ ∧ _))

/-! ## One step -/

/-- A change that puts in only well-formed entries, and touches with `operator[]` only what is
there. -/
def AgentChange.WellFormed (history : History) (map : ExtTreeMap String DNuser) : AgentChange → Prop
  | .unchanged => True
  | .signedIn dn user => WellFormedEntry history dn user
  | .touched dn _ change => (map[dn]?).isSome = true ∧
      ∀ user, WellFormedEntry history dn user → WellFormedEntry history dn (change user)
  | .adjusted dn change => ∀ user, WellFormedEntry history dn user → WellFormedEntry history dn (change user)
  | .signedOut _ => True

theorem AgentChange.WellFormed.apply {history : History} {map : ExtTreeMap String DNuser}
    {change : AgentChange} (wellFormed : change.WellFormed history map)
    (before : ∀ (dn : String) (user : DNuser), map[dn]? = some user → WellFormedEntry history dn user)
    (dn : String) (user : DNuser) (present : (change.apply map)[dn]? = some user) :
    WellFormedEntry history dn user := by
  have keeps : change.Keeps (WellFormedEntry history) map := by
    cases change <;> exact wellFormed
  exact keeps.apply before dn user present

/-- In a well-formed map the extension `GetDNbyagentid` answers is a key. -/
theorem getDNbyagentid_present {system : System} (wellFormed : WellFormedAgents system) {agentId : String}
    (named : system.manager.getDNbyagentid agentId ≠ "") :
    (system.manager.dnMap[system.manager.getDNbyagentid agentId]?).isSome = true :=
  getDNbyagentid_isSome (fun dn user present => (wellFormed dn user present).ownKey) named

theorem agentChange_wellFormed {lib : Libraries} {before after : System} {action : Action}
    (admitted : KeepsAgentMap before action) (taken : before.step lib action = some after)
    (wellFormed : WellFormedAgents before) :
    (agentChange before action).WellFormed after.history before.manager.dnMap := by
  obtain ⟨_, namedSignin, knownDispatch⟩ := admitted
  cases took_of_step taken with
  | signin request ambient =>
    cases valid : before.manager.checkvaildDN request.agentDn with
    | false => simp [agentChange, valid, AgentChange.WellFormed]
    | true =>
      cases found : before.manager.dnMap[request.agentDn]? with
      | none =>
        have named : request.agentDn ≠ "" := by simpa [signsInUnnamed, valid] using namedSignin
        have recorded : (before.manager.signin lib request ambient).1 = .operatorSuccessed := by
          simp [ManagerDN.signin, valid, found]
        simp only [agentChange, valid, found, if_true, AgentChange.WellFormed, recorded]
        exact .construct named (by simp [System.recordSignin])
      | some user =>
        simp only [agentChange, valid, found, if_true, AgentChange.WellFormed, Option.isSome_some, true_and]
        exact fun _ entry => entry.setagnetStatus _
  | setDNstatus agentId agentStatus ambient =>
    simp only [agentChange]
    split
    · rename_i named
      exact ⟨getDNbyagentid_present wellFormed named, fun _ entry => entry.setagnetStatus agentStatus⟩
    · trivial
  | resetDNinfo agentid departmentId departmentName userName ambient =>
    cases found : before.manager.dnMap[agentid]? with
    | none => simp [agentChange, found, AgentChange.WellFormed]
    | some user =>
      simp only [agentChange, found, AgentChange.WellFormed, Option.isSome_some, true_and]
      exact fun _ entry => entry.reset departmentId departmentName userName
  | event processed =>
    simp only [agentChange, eventChange]
    split
    · exact fun _ entry => entry.callEnded _
    · exact fun _ entry => entry.setagnetStatus _
    · trivial
  | acdDispatch stands =>
    simp only [agentChange, stands]
    simp only [dispatchesUnknown, stands, selectedDN, Option.any_some,
      Option.isNone_eq_false_iff] at knownDispatch
    exact ⟨knownDispatch, fun _ entry => entry.setagnetStatus _⟩
  | signout agentId ambient =>
    simp only [agentChange]
    split <;> trivial
  | _ => trivial

theorem signedIn_mono {lib : Libraries} {before after : System} {action : Action} {dn : String}
    (taken : before.step lib action = some after) (recorded : dn ∈ before.history.signedIn) :
    dn ∈ after.history.signedIn := by
  cases took_of_step taken with
  | signin request ambient =>
    simp only [System.recordSignin]
    split
    · exact List.mem_append_left _ recorded
    · exact recorded
  | event processed =>
    simp only [System.recordEvent]
    split <;> exact recorded
  | _ => exact recorded

theorem wellFormedAgents_step {lib : Libraries} {before after : System} {action : Action}
    (admitted : KeepsAgentMap before action) (taken : before.step lib action = some after)
    (wellFormed : WellFormedAgents before) : WellFormedAgents after := by
  intro dn user present
  rw [step_agents taken admitted.1] at present
  refine (agentChange_wellFormed admitted taken wellFormed).apply ?_ dn user present
  intro dn user found
  exact (wellFormed dn user found).later (signedIn_mono taken)

/-! ## Runs -/

/-- In every admitted run every agent is well formed. -/
theorem agents_wellFormed {lib : Libraries} {presisted : DnuserTable} {prefixNumber : String}
    {actions : List Action} {reached : System}
    (run : Run (Guarded KeepsAgentMap (Steps (System.step lib))) (System.initial presisted prefixNumber)
      actions reached) : WellFormedAgents reached :=
  run.invariant WellFormedAgents (fun _ _ _ step => wellFormedAgents_step step.1 step.2)
    fun dn user present => by simp [System.initial] at present

theorem agents_wellFormed_signin :
    WellFormedAgents (finish (System.step lockedDatabase) (System.initial (some []) "")
      [configured companyRoutes straightToAgent, readyAgent "1001", customerCalls "call-1" "4001", .acdGet,
       .acdScan noon, .acdDispatch true noon]) :=
  agents_wellFormed (guardedRun_finish (by decide +kernel))

/-- The agent signs out between its selection and the dispatch. -/
def signsOutInBetween : List Action :=
  [configured companyRoutes straightToAgent, readyAgent "1001", customerCalls "call-1" "4001", .acdGet,
   .acdScan noon, .signout "1001" noon, .acdDispatch true noon]

theorem dispatch_creates_agent :
    ¬ ∀ (presisted : DnuserTable) (prefixNumber : String) (actions : List Action) (reached : System),
      Run (Steps (System.step lockedDatabase)) (System.initial presisted prefixNumber) actions reached →
      WellFormedAgents reached := by
  intro wellFormed
  have entries := wellFormed (some []) "" signsOutInBetween _ (run_finish (by decide +kernel))
  have unassigned : ((finish (System.step lockedDatabase) (System.initial (some []) "")
      signsOutInBetween).manager.dnMap["1001"]?).map (fun user => user.commpanyid.assigned) = some false := by
    decide +kernel
  obtain ⟨user, present, notAssigned⟩ := Option.map_eq_some_iff.mp unassigned
  rw [(entries "1001" user present).company] at notAssigned
  contradiction

end CallCenter.Verified
