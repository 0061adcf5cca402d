import CallCenter.Verified.Pickers

/-!
# How a step changes the agents

Every operation changes `m_DNmap` at one key at most, in one of four ways.  `agentChange` says
which, `step_agents` that it says so for every step that does not restore agents from disk, and
the invariants about agents are case distinctions on it.
-/

namespace CallCenter.Verified

open Std (ExtTreeMap)
open CallCenter.Foundation CallCenter.Model

/-- What one operation does to the map of agents. -/
inductive AgentChange where
  | unchanged
  /-- A new entry. -/
  | signedIn (dn : String) (user : DNuser)
  /-- `m_DNmap[dn]`, changed; a missing entry is created first. -/
  | touched (dn : String) (fresh : DNuser) (change : DNuser → DNuser)
  /-- An entry that was looked up with `find`, changed. -/
  | adjusted (dn : String) (change : DNuser → DNuser)
  | signedOut (dn : String)

def AgentChange.apply (map : ExtTreeMap String DNuser) : AgentChange → ExtTreeMap String DNuser
  | unchanged => map
  | signedIn dn user => map.insert dn user
  | touched dn fresh change => OrderedMap.subscript map dn fresh change
  | adjusted dn change => map.modify dn change
  | signedOut dn => map.erase dn

theorem AgentChange.getElem?_apply (map : ExtTreeMap String DNuser) (change : AgentChange) (dn : String) :
    (change.apply map)[dn]? =
      match change with
      | .unchanged => map[dn]?
      | .signedIn key user => if key = dn then some user else map[dn]?
      | .touched key fresh update => if key = dn then some (update (map[dn]?.getD fresh)) else map[dn]?
      | .adjusted key update => if key = dn then map[dn]?.map update else map[dn]?
      | .signedOut key => if key = dn then none else map[dn]? := by
  cases change with
  | unchanged => rfl
  | signedIn key user => simp [apply, ExtTreeMap.getElem?_insert]
  | touched key fresh update =>
    simp only [apply, OrderedMap.getElem?_subscript]
    split <;> simp_all
  | adjusted key update =>
    simp only [apply, ExtTreeMap.getElem?_modify, compare_eq_iff_eq]
    split <;> simp_all
  | signedOut key => simp [apply, ExtTreeMap.getElem?_erase]

/-- The change makes this entry. -/
def AgentChange.Makes (map : ExtTreeMap String DNuser) (dn : String) (user : DNuser) : AgentChange → Prop
  | unchanged => False
  | signedIn key added => key = dn ∧ user = added
  | touched key fresh update => key = dn ∧ user = update (map[dn]?.getD fresh)
  | adjusted key update => key = dn ∧ ∃ old, map[dn]? = some old ∧ user = update old
  | signedOut _ => False

/-- An entry after a change was there before, or is the one the change makes. -/
theorem AgentChange.entry_of_apply {map : ExtTreeMap String DNuser} {change : AgentChange} {dn : String}
    {user : DNuser} (present : (change.apply map)[dn]? = some user) :
    map[dn]? = some user ∨ change.Makes map dn user := by
  rw [AgentChange.getElem?_apply] at present
  cases change with
  | unchanged => exact .inl present
  | signedIn key added =>
    by_cases same : key = dn
    · exact .inr ⟨same, by simpa [same] using present.symm⟩
    · exact .inl (by simpa [same] using present)
  | touched key fresh update =>
    by_cases same : key = dn
    · exact .inr ⟨same, by simpa [same] using present.symm⟩
    · exact .inl (by simpa [same] using present)
  | adjusted key update =>
    by_cases same : key = dn
    · simp only [same, if_true] at present
      obtain ⟨old, found, changed⟩ := Option.map_eq_some_iff.mp present
      exact .inr ⟨same, old, found, changed.symm⟩
    · exact .inl (by simpa [same] using present)
  | signedOut key =>
    by_cases same : key = dn
    · simp [same] at present
    · exact .inl (by simpa [same] using present)

/-- What a change has to do for a property of the entries to hold after it: a new entry has it, and
an update keeps it on an entry that is there. -/
def AgentChange.Keeps (holds : String → DNuser → Prop) (map : ExtTreeMap String DNuser) : AgentChange → Prop
  | .unchanged => True
  | .signedIn dn user => holds dn user
  | .touched dn _ change => (map[dn]?).isSome = true ∧ ∀ user, holds dn user → holds dn (change user)
  | .adjusted dn change => ∀ user, holds dn user → holds dn (change user)
  | .signedOut _ => True

theorem AgentChange.Keeps.apply {holds : String → DNuser → Prop} {map : ExtTreeMap String DNuser}
    {change : AgentChange} (keeps : change.Keeps holds map)
    (before : ∀ (dn : String) (user : DNuser), map[dn]? = some user → holds dn user)
    (dn : String) (user : DNuser) (present : (change.apply map)[dn]? = some user) : holds dn user := by
  cases AgentChange.entry_of_apply present with
  | inl there => exact before dn user there
  | inr made =>
    cases change with
    | unchanged => contradiction
    | signedIn key added =>
      obtain ⟨rfl, rfl⟩ := made
      exact keeps
    | touched key fresh update =>
      obtain ⟨rfl, rfl⟩ := made
      obtain ⟨old, found⟩ := Option.isSome_iff_exists.mp keeps.1
      rw [found, Option.getD_some]
      exact keeps.2 old (before key old found)
    | adjusted key update =>
      obtain ⟨rfl, old, found, rfl⟩ := made
      exact keeps old (before key old found)
    | signedOut key => contradiction

/-- Where every agent stands under its own extension, the one `GetDNbyagentid` answers is a key. -/
theorem getDNbyagentid_isSome {manager : ManagerDN}
    (ownKeys : ∀ (dn : String) (user : DNuser), manager.dnMap[dn]? = some user → user.dn = dn)
    {agentId : String} (named : manager.getDNbyagentid agentId ≠ "") :
    (manager.dnMap[manager.getDNbyagentid agentId]?).isSome = true := by
  unfold ManagerDN.getDNbyagentid at named ⊢
  cases found : manager.dnMap.toList.find? fun entry => entry.2.agentid == agentId with
  | none => simp [found] at named
  | some entry =>
    have present := OrderedMap.mem_toList_iff.mp (List.mem_of_find?_eq_some found)
    simp [ownKeys entry.1 entry.2 present, present]

/-- `{ user with agentstatus := status }`, the store all writers of the status share. -/
abbrev storeStatus (status : AgentStatus) : DNuser → DNuser := DNuser.setagnetStatus status.code

/-- The change an event makes: only the end and the answer of a call reach the agents. -/
def eventChange (event : Event) : AgentChange :=
  match event.eventId with
  | .channelDestroy =>
    .adjusted event.destinationNumber (DNuser.callEnded (headerOrEmpty event "variable_duration"))
  | .channelAnswer => .adjusted event.destinationNumber (storeStatus .talking)
  | _ => .unchanged

/-- The change an action makes. -/
def agentChange (system : System) : Action → AgentChange
  | .signin request ambient =>
    if system.manager.checkvaildDN request.agentDn then
      match system.manager.dnMap[request.agentDn]? with
      | none => .signedIn request.agentDn <| (DNuser.construct request ambient).inlineSetcompanyid
          (atoi (system.manager.getcompanyidbyDN request.agentDn))
      | some _ => .touched request.agentDn (.default ambient) (storeStatus .waitingReady)
    else .unchanged
  | .signout agentId _ =>
    if system.manager.getDNbyagentid agentId ≠ "" then .signedOut (system.manager.getDNbyagentid agentId)
    else .unchanged
  | .setDNstatus agentId agentStatus ambient =>
    if system.manager.getDNbyagentid agentId ≠ "" then
      .touched (system.manager.getDNbyagentid agentId) (.default ambient) (DNuser.setagnetStatus agentStatus)
    else .unchanged
  | .resetDNinfo agentid departmentId departmentName userName ambient =>
    match system.manager.dnMap[agentid]? with
    | none => .unchanged
    | some _ => .touched agentid (.default ambient) fun user =>
        { user with
          departmentId := .assign departmentId
          departmentName, userName
          agentstatus := .assign AgentStatus.waitingReady.code }
  | .event event _ => eventChange event
  | .acdDispatch _ ambient =>
    match system.acd with
    | .selected _ dn => .touched dn (.default ambient) (storeStatus .ringing)
    | _ => .unchanged
  | _ => .unchanged

/-- The changes an action can make, each with what holds before it. -/
inductive Changes (system : System) : Action → AgentChange → Prop where
  | unchanged (action : Action) : Changes system action .unchanged
  | signedIn (request : SigninRequest) (ambient : Ambient)
      (absent : system.manager.dnMap[request.agentDn]? = none) :
      Changes system (.signin request ambient) (.signedIn request.agentDn <|
        (DNuser.construct request ambient).inlineSetcompanyid
          (atoi (system.manager.getcompanyidbyDN request.agentDn)))
  | signedInAgain (request : SigninRequest) (ambient : Ambient) :
      Changes system (.signin request ambient)
        (.touched request.agentDn (.default ambient) (storeStatus .waitingReady))
  | signedOut (agentId : String) (ambient : Ambient) :
      Changes system (.signout agentId ambient) (.signedOut (system.manager.getDNbyagentid agentId))
  | statusSet (agentId : String) (agentStatus : Int) (ambient : Ambient) :
      Changes system (.setDNstatus agentId agentStatus ambient)
        (.touched (system.manager.getDNbyagentid agentId) (.default ambient) (DNuser.setagnetStatus agentStatus))
  | reset (agentid : String) (departmentId : Int) (departmentName userName : String) (ambient : Ambient) :
      Changes system (.resetDNinfo agentid departmentId departmentName userName ambient)
        (.touched agentid (.default ambient) fun user =>
          { user with
            departmentId := .assign departmentId
            departmentName, userName
            agentstatus := .assign AgentStatus.waitingReady.code })
  | ended (event : Event) (ambient : Ambient) :
      Changes system (.event event ambient)
        (.adjusted event.destinationNumber (DNuser.callEnded (headerOrEmpty event "variable_duration")))
  | answered (event : Event) (ambient : Ambient) :
      Changes system (.event event ambient) (.adjusted event.destinationNumber (storeStatus .talking))
  | dispatched (bridged : Bool) (ambient : Ambient) (dn : String) :
      Changes system (.acdDispatch bridged ambient) (.touched dn (.default ambient) (storeStatus .ringing))

theorem changes_agentChange (system : System) (action : Action) :
    Changes system action (agentChange system action) := by
  cases action with
  | signin request ambient =>
    simp only [agentChange]
    split
    · split
      · rename_i absent
        exact .signedIn request ambient absent
      · exact .signedInAgain request ambient
    · exact .unchanged _
  | signout agentId ambient =>
    simp only [agentChange]
    split
    · exact .signedOut agentId ambient
    · exact .unchanged _
  | setDNstatus agentId agentStatus ambient =>
    simp only [agentChange]
    split
    · exact .statusSet agentId agentStatus ambient
    · exact .unchanged _
  | resetDNinfo agentid departmentId departmentName userName ambient =>
    simp only [agentChange]
    split
    · exact .unchanged _
    · exact .reset agentid departmentId departmentName userName ambient
  | event event ambient =>
    simp only [agentChange, eventChange]
    split
    · exact .ended event ambient
    · exact .answered event ambient
    · exact .unchanged _
  | acdDispatch bridged ambient =>
    simp only [agentChange]
    split
    · exact .dispatched bridged ambient _
    · exact .unchanged _
  | _ => exact .unchanged _

/-- The action restores an agent from disk. -/
def restores (system : System) : Action → Bool
  | .loadDNSet opened _ => opened && (system.manager.presisted.getD []).any fun row => row.2 ≠ ""
  | _ => false

/-! ## The operations leave the map as `agentChange` says -/

@[simp] theorem signalIfReady_dnMap (status : Int) (manager : ManagerDN) :
    (manager.signalIfReady status).dnMap = manager.dnMap := by
  unfold ManagerDN.signalIfReady
  split <;> rfl

@[simp] theorem signalIfReady_presisted (status : Int) (manager : ManagerDN) :
    (manager.signalIfReady status).presisted = manager.presisted := by
  unfold ManagerDN.signalIfReady
  split <;> rfl

@[simp] theorem setagnetStatus_presisted (dn : String) (status : Int) (ambient : Ambient)
    (manager : ManagerDN) :
    (manager.setagnetStatus dn status ambient).presisted = manager.presisted := by
  simp [ManagerDN.setagnetStatus, ManagerDN.updateDN]

@[simp] theorem setagnetStatus_dnMap (dn : String) (status : Int) (ambient : Ambient) (manager : ManagerDN) :
    (manager.setagnetStatus dn status ambient).dnMap =
      OrderedMap.subscript manager.dnMap dn (.default ambient) (DNuser.setagnetStatus status) := by
  simp [ManagerDN.setagnetStatus, ManagerDN.updateDN]

@[simp] theorem changestate_dnMap (lib : Libraries) (dn : String) (ambient : Ambient) (manager : ManagerDN) :
    (manager.changestate lib dn ambient).dnMap = manager.dnMap := rfl

@[simp] theorem enterNode_dnMap (handle : Handle) (uuid : String) (session : IvrSession) (pnode : IvrNode)
    (manager : ManagerDN) : (manager.enterNode handle uuid session pnode).dnMap = manager.dnMap := by
  unfold ManagerDN.enterNode
  split <;> rfl

theorem signin_dnMap (lib : Libraries) (request : SigninRequest) (ambient : Ambient) (system : System) :
    (system.manager.signin lib request ambient).2.dnMap =
      (agentChange system (.signin request ambient)).apply system.manager.dnMap := by
  simp only [ManagerDN.signin, agentChange]
  split
  · cases found : system.manager.dnMap[request.agentDn]? with
    | none => simp [AgentChange.apply]
    | some user => rfl
  · rfl

theorem signout_dnMap (lib : Libraries) (agentId : String) (ambient : Ambient) (system : System) :
    (system.manager.signout lib agentId ambient).2.dnMap =
      (agentChange system (.signout agentId ambient)).apply system.manager.dnMap := by
  simp only [ManagerDN.signout, agentChange]
  split <;> rfl

theorem setDNstatus_dnMap (lib : Libraries) (agentId : String) (status : Int) (ambient : Ambient)
    (system : System) :
    (system.manager.setDNstatus lib agentId status ambient).2.dnMap =
      (agentChange system (.setDNstatus agentId status ambient)).apply system.manager.dnMap := by
  simp only [ManagerDN.setDNstatus, agentChange]
  split
  · simp [AgentChange.apply]
  · rfl

theorem resetDNinfo_dnMap (agentid : String) (departmentId : Int) (departmentName userName : String)
    (ambient : Ambient) (system : System) :
    (system.manager.resetDNinfo agentid departmentId departmentName userName ambient).2.dnMap =
      (agentChange system (.resetDNinfo agentid departmentId departmentName userName ambient)).apply
        system.manager.dnMap := by
  simp only [ManagerDN.resetDNinfo, agentChange]
  cases system.manager.dnMap[agentid]? <;> rfl

theorem inlineTransformAgent_dnMap (lib : Libraries) (dn : String) (session : IvrSession) (ambient : Ambient)
    (manager : ManagerDN) :
    (manager.inlineTransformAgent lib dn session ambient).dnMap =
      OrderedMap.subscript manager.dnMap dn (.default ambient) (storeStatus .ringing) := by
  unfold ManagerDN.inlineTransformAgent
  cases session.newhandle <;> simp [ManagerDN.deleteHandle, ManagerDN.eslExecute]

theorem closeCallInfo_dnMap (event : Event) (ambient : Ambient) (manager : ManagerDN) :
    (manager.closeCallInfo event ambient).dnMap = manager.dnMap := by
  unfold ManagerDN.closeCallInfo
  split <;> rfl

theorem answerTask_dnMap (event : Event) (ambient : Ambient) (manager : ManagerDN) :
    (manager.answerTask event ambient).dnMap = manager.dnMap := by
  simp only [ManagerDN.answerTask]
  split
  · split <;> simp [ManagerDN.setCurrentnode]
  · rfl

theorem releaseAgent_dnMap (event : Event) (manager : ManagerDN) :
    (manager.releaseAgent event).dnMap = manager.dnMap.modify event.destinationNumber
      (DNuser.callEnded (headerOrEmpty event "variable_duration")) := by
  unfold ManagerDN.releaseAgent
  split
  · rfl
  · rename_i absent
    apply ExtTreeMap.ext_getElem?
    intro key
    rw [ExtTreeMap.getElem?_modify]
    split
    · rename_i same
      rw [compare_eq_iff_eq] at same
      subst same
      simp [ExtTreeMap.getElem?_eq_none absent]
    · rfl

theorem processEvent_dnMap {event : Event} {ambient : Ambient} {manager after : ManagerDN}
    (processed : manager.processEvent event ambient = .ok after) :
    after.dnMap = (eventChange event).apply manager.dnMap := by
  unfold ManagerDN.processEvent at processed
  unfold eventChange
  cases kind : event.eventId <;> simp only [kind, Except.ok.injEq] at processed ⊢
  case dtmf =>
    rcases onDtmf_ok processed with rfl | ⟨_, _, _, _, rfl⟩
    · rfl
    · exact enterNode_dnMap _ _ _ _ _
  case channelOriginate =>
    rcases onOriginate_ok processed with ⟨_, rfl⟩ | ⟨_, _, _, rfl⟩ <;> rfl
  case channelDestroy =>
    subst processed
    exact (releaseAgent_dnMap _ _).trans (by rw [closeCallInfo_dnMap]; rfl)
  case channelAnswer =>
    subst processed
    exact congrArg (ExtTreeMap.modify · _ _) (answerTask_dnMap event ambient manager)
  case playbackStop => rw [onPlaybackStop_ok processed]; rfl
  all_goals subst processed; rfl

theorem nwayccCallback_dnMap {incoming : Incoming} {ambient : Ambient} {manager after : ManagerDN}
    {kept : Option Nat} (accepted : manager.nwayccCallback incoming ambient = .ok (kept, after)) :
    after.dnMap = manager.dnMap := by
  obtain ⟨_, _, ⟨_, rfl⟩ | ⟨_, _, _, _, rfl⟩⟩ := nwayccCallback_ok accepted <;> rfl

theorem reloaddb_dnMap {lib : Libraries} {answers : DatabaseAnswers} {manager after : ManagerDN}
    (reloaded : manager.reloaddb lib answers = .ok after) : after.dnMap = manager.dnMap := by
  unfold ManagerDN.reloaddb at reloaded
  obtain ⟨ivr, _, reloaded⟩ := Outcomes.bind_ok reloaded
  obtain rfl := Except.ok.inj reloaded
  rfl

/-- Rows without a serialised agent restore nothing. -/
theorem foldlM_restoreRow_of_blank {lib : Libraries} {ambient : Ambient} {rows : List (String × String)}
    (blank : ∀ row ∈ rows, row.2 = "") (manager : ManagerDN) :
    rows.foldlM (ManagerDN.restoreRow lib ambient) manager = .ok manager := by
  induction rows with
  | nil => rfl
  | cons row rows inductionHypothesis =>
    have nothing : manager.restoreRow lib ambient row = .ok manager := by
      simp [ManagerDN.restoreRow, blank row List.mem_cons_self]
      rfl
    rw [List.foldlM_cons, nothing]
    exact inductionHypothesis fun other member => blank other (List.mem_cons_of_mem _ member)

theorem loadDNSet_dnMap {lib : Libraries} {opened : Bool} {ambient : Ambient} {system : System}
    {after : ManagerDN} (loaded : system.manager.loadDNSet lib opened ambient = .ok after)
    (blank : restores system (.loadDNSet opened ambient) = false) :
    after.dnMap = system.manager.dnMap := by
  unfold ManagerDN.loadDNSet at loaded
  unfold restores at blank
  split at loaded
  · rename_i isOpen
    split at loaded
    · rename_i rows persisted
      have nothing : ∀ row ∈ rows, row.2 = "" := by simpa [isOpen, persisted] using blank
      rw [foldlM_restoreRow_of_blank nothing] at loaded
      rw [Except.ok.inj loaded]
    · rw [← Except.ok.inj loaded]
  · rw [← Except.ok.inj loaded]

/-! ## Steps -/

/-- A step that restores no agent from disk changes the agents as `agentChange` says. -/
theorem step_agents {lib : Libraries} {before after : System} {action : Action}
    (taken : before.step lib action = some after) (fresh : restores before action = false) :
    after.manager.dnMap = (agentChange before action).apply before.manager.dnMap := by
  cases took_of_step taken with
  | signin request ambient => exact signin_dnMap lib request ambient before
  | signout agentId ambient => exact signout_dnMap lib agentId ambient before
  | setDNstatus agentId agentStatus ambient => exact setDNstatus_dnMap lib agentId agentStatus ambient before
  | resetDNinfo agentid departmentId departmentName userName ambient =>
    exact resetDNinfo_dnMap agentid departmentId departmentName userName ambient before
  | reloaddb reloaded => exact reloaddb_dnMap reloaded
  | loadDNSet loaded => exact loadDNSet_dnMap loaded fresh
  | event processed => exact processEvent_dnMap processed
  | incoming accepted => exact nwayccCallback_dnMap accepted
  | acdDispatch stands =>
    simp only [agentChange, stands]
    exact inlineTransformAgent_dnMap lib _ _ _ before.manager
  | _ => rfl

/-! ## Who is made ready -/

/-- The action stores `DN_Waiting_ready` under `dn`. -/
def makesReady (dn : String) (before : System) : Action → Bool
  | .signin request _ =>
    before.manager.checkvaildDN request.agentDn && request.agentDn == dn &&
      ((before.manager.dnMap[dn]?).isSome || request.statusChangetype == AgentStatus.waitingReady.code)
  | .setDNstatus agentId agentStatus _ =>
    dn != "" && before.manager.getDNbyagentid agentId == dn && agentStatus == AgentStatus.waitingReady.code
  | .resetDNinfo agentid _ _ _ _ => agentid == dn && (before.manager.dnMap[dn]?).isSome
  | .event event _ =>
    event.eventId == .channelDestroy && event.destinationNumber == dn && (before.manager.dnMap[dn]?).isSome
  | _ => false

theorem isReady_of_change {manager after : ManagerDN} {change : AgentChange}
    (changed : after.dnMap = change.apply manager.dnMap) (dn : String) :
    isReady dn after = ((change.apply manager.dnMap)[dn]?).any fun user =>
      user.agentstatus.value == AgentStatus.waitingReady.code := by
  rw [isReady, changed]

/-- A step makes an agent ready only by storing that status for it. -/
theorem ready_step {lib : Libraries} {before after : System} {action : Action} {dn : String}
    (taken : before.step lib action = some after) (fresh : restores before action = false)
    (ready : isReady dn after.manager = true) :
    isReady dn before.manager = true ∨ makesReady dn before action = true := by
  rw [isReady_of_change (step_agents taken fresh), AgentChange.getElem?_apply] at ready
  cases action with
  | signin request ambient =>
    cases valid : before.manager.checkvaildDN request.agentDn with
    | false => exact .inl (by simpa [isReady, agentChange, valid] using ready)
    | true =>
      by_cases same : request.agentDn = dn
      · subst same
        -- a first sign-in stores the status it asks for, another one makes the agent ready
        cases found : before.manager.dnMap[request.agentDn]? with
        | none =>
          have status : request.statusChangetype = AgentStatus.waitingReady.code := by
            simpa [agentChange, valid, found, DNuser.construct, DNuser.inlineSetcompanyid] using ready
          exact .inr (by simp [makesReady, valid, status])
        | some user => exact .inr (by simp [makesReady, valid, found])
      · cases found : before.manager.dnMap[request.agentDn]? <;>
          exact .inl (by simpa [isReady, agentChange, valid, found, same] using ready)
  | signout agentId ambient =>
    simp only [agentChange] at ready
    by_cases named : before.manager.getDNbyagentid agentId ≠ ""
    · simp only [named, if_true, ne_eq, not_false_eq_true] at ready
      -- the agent that signs out is not there any more
      by_cases same : before.manager.getDNbyagentid agentId = dn
      · simp [same] at ready
      · exact .inl (by simpa [isReady, same] using ready)
    · exact .inl (by simpa [isReady, named] using ready)
  | setDNstatus agentId agentStatus ambient =>
    simp only [agentChange] at ready
    by_cases named : before.manager.getDNbyagentid agentId ≠ ""
    · simp only [named, if_true, ne_eq, not_false_eq_true] at ready
      by_cases same : before.manager.getDNbyagentid agentId = dn
      · have status : agentStatus = AgentStatus.waitingReady.code := by
          simpa [same, DNuser.setagnetStatus] using ready
        exact .inr (by simp [makesReady, ← same, named, status])
      · exact .inl (by simpa [isReady, same] using ready)
    · exact .inl (by simpa [isReady, named] using ready)
  | resetDNinfo agentid departmentId departmentName userName ambient =>
    simp only [agentChange] at ready
    cases found : before.manager.dnMap[agentid]? with
    | none => exact .inl (by simpa [isReady, found] using ready)
    | some user =>
      by_cases same : agentid = dn
      · exact .inr (by simp [makesReady, ← same, found])
      · exact .inl (by simpa [isReady, found, same] using ready)
  | event event ambient =>
    simp only [agentChange, eventChange] at ready
    cases kind : event.eventId <;> simp only [kind] at ready <;> try exact .inl ready
    case channelDestroy =>
      by_cases same : event.destinationNumber = dn
      · cases found : before.manager.dnMap[dn]? with
        | none => simp [same, found] at ready
        | some user => exact .inr (by simp [makesReady, kind, same, found])
      · exact .inl (by simpa [isReady, same] using ready)
    case channelAnswer =>
      -- an answered agent talks
      by_cases same : event.destinationNumber = dn
      · cases found : before.manager.dnMap[dn]? <;>
          simp [same, found, DNuser.setagnetStatus, AgentStatus.code] at ready
      · exact .inl (by simpa [isReady, same] using ready)
  | acdDispatch bridged ambient =>
    cases stands : before.acd with
    | selected session chosen =>
      -- and one a call goes to rings
      by_cases same : chosen = dn
      · simp [agentChange, stands, same, DNuser.setagnetStatus, AgentStatus.code] at ready
      · exact .inl (by simpa [isReady, agentChange, stands, same] using ready)
    | _ => exact .inl (by simpa [isReady, agentChange, stands] using ready)
  | _ => exact .inl ready

theorem not_ready_of_dispatch {lib : Libraries} {before after : System} {bridged : Bool} {ambient : Ambient}
    {session : IvrSession} {dn : String} (taken : before.step lib (.acdDispatch bridged ambient) = some after)
    (stands : before.acd = .selected session dn) : isReady dn after.manager = false := by
  rw [isReady_of_change (step_agents taken rfl), AgentChange.getElem?_apply]
  simp [agentChange, stands, DNuser.setagnetStatus, AgentStatus.code]

end CallCenter.Verified
