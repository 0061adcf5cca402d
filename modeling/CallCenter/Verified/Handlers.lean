import CallCenter.Foundation.Outcomes
import CallCenter.Model.System

/-!
# What the event handlers do

One lemma for each handler that can fail, saying what it did when it did not, and the parts of
the state the shared pieces leave alone.
-/

namespace CallCenter.Verified

open Std (ExtTreeMap)
open CallCenter.Foundation CallCenter.Model

theorem toOption_map_eq_some {Result : Type} {outcome : Except Fault Result} {wrap : Result → System}
    {after : System} (taken : outcome.toOption.map wrap = some after) :
    ∃ result, outcome = .ok result ∧ after = wrap result := by
  cases outcome with
  | error fault => contradiction
  | ok result => exact ⟨result, rfl, (Option.some.inj taken).symm⟩

theorem headerAsString_ok {event : Event} {name value : String} (read : headerAsString event name = .ok value) :
    eslEventGetHeader event name = some value := by
  unfold headerAsString at read
  split at read
  · rename_i found there
    rw [there, Except.ok.inj read]
  · contradiction

/-- A key press does nothing, or leads the call's session into the next node. -/
theorem onDtmf_ok {event : Event} {ambient : Ambient} {manager after : ManagerDN}
    (processed : manager.onDtmf event ambient = .ok after) :
    after = manager ∨ ∃ psession pnode,
      manager.ivrmap[event.uuid]? = some psession ∧
      manager.ivr.getnodeinfo psession.companyid psession.currentnodeid
        (headerOrEmpty event "DTMF-Digit") = some pnode ∧
      after = (manager.setCurrentnode event.uuid pnode.nodeId ambient).enterNode .inbound event.uuid
        { psession with currentnodeid := pnode.nodeId } pnode := by
  unfold ManagerDN.onDtmf at processed
  obtain ⟨_, _, processed⟩ := Outcomes.bind_ok processed
  split at processed
  · exact .inl (Except.ok.inj processed).symm
  · rename_i psession stored
    dsimp only at processed
    split at processed
    · exact .inl (Except.ok.inj processed).symm
    · rename_i pnode answered
      exact .inr ⟨psession, pnode, stored, answered, (Except.ok.inj processed).symm⟩

/-- An originated call of a signed-in agent gets a record and a bridge command. -/
theorem onOriginate_ok {event : Event} {ambient : Ambient} {manager after : ManagerDN}
    (processed : manager.onOriginate event ambient = .ok after) :
    (manager.dnMap[event.callerId]? = none ∧ after = manager) ∨
      ∃ user charcmd, manager.dnMap[event.callerId]? = some user ∧
        after = ManagerDN.eslExecute (some .inbound) "bridge" charcmd event.uuid
          { manager with
            callInfoMap := manager.callInfoMap.insert event.uuid
              (manager.originateInfo event event.destinationNumber ambient) } := by
  unfold ManagerDN.onOriginate at processed
  obtain ⟨destinationNumber, read, processed⟩ := Outcomes.bind_ok processed
  have destination : event.destinationNumber = destinationNumber := by
    rw [Event.destinationNumber, headerOrEmpty, headerAsString_ok read, Option.getD_some]
  subst destination
  split at processed
  · rename_i absent
    exact .inl ⟨absent, (Except.ok.inj processed).symm⟩
  · rename_i user present
    obtain ⟨route, _, processed⟩ := Outcomes.bind_ok processed
    exact .inr ⟨user, _, present, (Except.ok.inj processed).symm⟩

theorem onPlaybackStop_ok {event : Event} {manager after : ManagerDN}
    (processed : manager.onPlaybackStop event = .ok after) : after = manager := by
  unfold ManagerDN.onPlaybackStop at processed
  obtain ⟨_, _, processed⟩ := Outcomes.bind_ok processed
  exact (Except.ok.inj processed).symm

theorem closeCallInfo_frame (event : Event) (ambient : Ambient) (manager : ManagerDN) :
    ∃ callInfoMap callRecords, manager.closeCallInfo event ambient =
      { manager with callInfoMap, callRecords } := by
  simp only [ManagerDN.closeCallInfo]
  split <;> exact ⟨_, _, rfl⟩

/-- An event leaves the configuration, the copies on disk and the handles alone. -/
theorem processEvent_frame {event : Event} {ambient : Ambient} {manager after : ManagerDN}
    (processed : manager.processEvent event ambient = .ok after) :
    ∃ dnMap callInfoMap ivrmap acdqueue readyDNsema calloutsema commands callRecords arrivals,
      after = { manager with
        dnMap, callInfoMap, ivrmap, acdqueue, readyDNsema, calloutsema, commands, callRecords, arrivals } := by
  simp only [ManagerDN.processEvent] at processed
  cases kind : event.eventId <;> simp only [kind, Except.ok.injEq] at processed
  case dtmf =>
    rcases onDtmf_ok processed with rfl | ⟨psession, pnode, _, _, rfl⟩
    · exact ⟨_, _, _, _, _, _, _, _, _, rfl⟩
    · simp only [ManagerDN.enterNode]
      split <;> exact ⟨_, _, _, _, _, _, _, _, _, rfl⟩
  case channelOriginate =>
    rcases onOriginate_ok processed with ⟨_, rfl⟩ | ⟨_, _, _, rfl⟩ <;> exact ⟨_, _, _, _, _, _, _, _, _, rfl⟩
  case channelDestroy =>
    subst processed
    obtain ⟨callInfoMap, callRecords, closed⟩ := closeCallInfo_frame event ambient manager
    rw [ManagerDN.onDestroy, closed, ManagerDN.releaseAgent]
    split <;> exact ⟨_, _, _, _, _, _, _, _, _, rfl⟩
  case channelAnswer =>
    subst processed
    simp only [ManagerDN.onAnswer, ManagerDN.answerTask, ManagerDN.enterNode]
    split
    · split
      · exact ⟨_, _, _, _, _, _, _, _, _, rfl⟩
      · rename_i pnode _
        by_cases agent : pnode.recordfile = ivrAgnetMsg
        · rw [if_pos agent]
          exact ⟨_, _, _, _, _, _, _, _, _, rfl⟩
        · rw [if_neg agent]
          exact ⟨_, _, _, _, _, _, _, _, _, rfl⟩
    · exact ⟨_, _, _, _, _, _, _, _, _, rfl⟩
  case playbackStop =>
    rw [onPlaybackStop_ok processed]
    exact ⟨_, _, _, _, _, _, _, _, _, rfl⟩
  all_goals
    subst processed
    exact ⟨_, _, _, _, _, _, _, _, _, rfl⟩

/-- The session of a new call goes into the queue together with the handle, or stays out of it. -/
theorem startSession_cases (handle : Nat) (callid companyid : String) (ambient : Ambient)
    (manager : ManagerDN) :
    ∃ ivrmap commands,
      manager.startSession handle callid companyid ambient = (false, { manager with ivrmap, commands }) ∨
      ∃ session, session.newhandle = some handle ∧
        manager.startSession handle callid companyid ambient =
          (true, ManagerDN.transformAgent (.outbound handle) callid session
            { manager with ivrmap, commands }) := by
  dsimp only [ManagerDN.startSession]
  split
  · exact ⟨_, _, .inl rfl⟩
  · rename_i pnode _
    by_cases agent : pnode.recordfile = ivrAgnetMsg
    · simp only [agent, decide_true, if_true, ManagerDN.enterNode]
      exact ⟨_, _, .inr ⟨_, rfl, rfl⟩⟩
    · simp only [agent, decide_false, if_false, ManagerDN.enterNode]
      exact ⟨_, _, .inl rfl⟩

/-- A callback that ends without an error either keeps its handle, or has put a session that owns
the handle into the queue.  Beyond that it reaches the sessions and the commands only. -/
theorem nwayccCallback_ok {incoming : Incoming} {ambient : Ambient} {manager after : ManagerDN}
    {kept : Option Nat} (accepted : manager.nwayccCallback incoming ambient = .ok (kept, after)) :
    ∃ ivrmap commands,
      (kept = some manager.allocated ∧
        after = { manager with allocated := manager.allocated + 1, ivrmap, commands }) ∨
      ∃ callid session, kept = none ∧ session.newhandle = some manager.allocated ∧
        after = ManagerDN.transformAgent (.outbound manager.allocated) callid session
          { manager with allocated := manager.allocated + 1, ivrmap, commands } := by
  unfold ManagerDN.nwayccCallback at accepted
  dsimp only at accepted
  split at accepted
  · obtain ⟨rfl, rfl⟩ := Prod.mk.inj (Except.ok.inj accepted)
    exact ⟨_, _, .inl ⟨rfl, rfl⟩⟩
  · split at accepted
    · obtain ⟨rfl, rfl⟩ := Prod.mk.inj (Except.ok.inj accepted)
      exact ⟨_, _, .inl ⟨rfl, rfl⟩⟩
    · obtain ⟨callid, _, accepted⟩ := Outcomes.bind_ok accepted
      obtain ⟨rfl, rfl⟩ := Prod.mk.inj (Except.ok.inj accepted)
      rcases startSession_cases manager.allocated callid _ ambient _ with
        ⟨ivrmap, commands, started | ⟨session, owns, started⟩⟩
      · rw [started]
        exact ⟨ivrmap, commands, .inl ⟨rfl, rfl⟩⟩
      · rw [started]
        exact ⟨ivrmap, commands, .inr ⟨callid, session, rfl, owns, rfl⟩⟩

/-! ## What the requests of the agents leave alone -/

/-- At most the agents, their semaphore and their copies on disk differ. -/
def AgentsOnly (before after : ManagerDN) : Prop :=
  ∃ dnMap readyDNsema presisted, after = { before with dnMap, readyDNsema, presisted }

theorem AgentsOnly.refl (manager : ManagerDN) : AgentsOnly manager manager := ⟨_, _, _, rfl⟩

theorem AgentsOnly.trans {first second third : ManagerDN} (earlier : AgentsOnly first second)
    (later : AgentsOnly second third) : AgentsOnly first third := by
  obtain ⟨_, _, _, rfl⟩ := earlier
  obtain ⟨_, _, _, rfl⟩ := later
  exact ⟨_, _, _, rfl⟩

theorem setagnetStatus_agentsOnly (dn : String) (status : Int) (ambient : Ambient) (manager : ManagerDN) :
    AgentsOnly manager (manager.setagnetStatus dn status ambient) := by
  unfold ManagerDN.setagnetStatus ManagerDN.signalIfReady
  split <;> exact ⟨_, _, _, rfl⟩

theorem changestate_agentsOnly (lib : Libraries) (dn : String) (ambient : Ambient) (manager : ManagerDN) :
    AgentsOnly manager (manager.changestate lib dn ambient) :=
  ⟨_, _, _, rfl⟩

theorem signin_agentsOnly (lib : Libraries) (request : SigninRequest) (ambient : Ambient)
    (manager : ManagerDN) : AgentsOnly manager (manager.signin lib request ambient).2 := by
  unfold ManagerDN.signin ManagerDN.signalIfReady
  split
  · split
    · dsimp only
      split <;> exact ⟨_, _, _, rfl⟩
    · exact ⟨_, _, _, rfl⟩
  · exact .refl manager

theorem signout_agentsOnly (lib : Libraries) (agentId : String) (ambient : Ambient) (manager : ManagerDN) :
    AgentsOnly manager (manager.signout lib agentId ambient).2 := by
  unfold ManagerDN.signout
  dsimp only
  split
  · exact ⟨_, _, _, rfl⟩
  · exact .refl manager

theorem setDNstatus_agentsOnly (lib : Libraries) (agentId : String) (status : Int) (ambient : Ambient)
    (manager : ManagerDN) : AgentsOnly manager (manager.setDNstatus lib agentId status ambient).2 := by
  unfold ManagerDN.setDNstatus
  dsimp only
  split
  · exact (setagnetStatus_agentsOnly _ _ _ _).trans (changestate_agentsOnly _ _ _ _)
  · exact .refl manager

theorem resetDNinfo_agentsOnly (agentid : String) (departmentId : Int) (departmentName userName : String)
    (ambient : Ambient) (manager : ManagerDN) :
    AgentsOnly manager (manager.resetDNinfo agentid departmentId departmentName userName ambient).2 := by
  unfold ManagerDN.resetDNinfo
  split
  · exact .refl manager
  · exact ⟨_, _, _, rfl⟩

theorem restoreRow_agentsOnly {lib : Libraries} {ambient : Ambient} {manager after : ManagerDN}
    {row : String × String} (restored : manager.restoreRow lib ambient row = .ok after) :
    AgentsOnly manager after := by
  unfold ManagerDN.restoreRow at restored
  split at restored
  · obtain ⟨_, _, restored⟩ := Outcomes.bind_ok restored
    obtain rfl := Except.ok.inj restored
    exact ⟨_, _, _, rfl⟩
  · obtain rfl := Except.ok.inj restored
    exact .refl manager

theorem loadDNSet_agentsOnly {lib : Libraries} {opened : Bool} {ambient : Ambient} {manager after : ManagerDN}
    (loaded : manager.loadDNSet lib opened ambient = .ok after) : AgentsOnly manager after := by
  unfold ManagerDN.loadDNSet at loaded
  split at loaded
  · split at loaded
    · exact OrderedMap.foldlM_keeps (AgentsOnly manager)
        (fun _ _ _ _ restored earlier => earlier.trans (restoreRow_agentsOnly restored)) loaded (.refl manager)
    · obtain rfl := Except.ok.inj loaded
      exact ⟨_, _, _, rfl⟩
  · obtain rfl := Except.ok.inj loaded
    exact .refl manager

theorem reloaddb_ok {lib : Libraries} {answers : DatabaseAnswers} {manager after : ManagerDN}
    (reloaded : manager.reloaddb lib answers = .ok after) :
    ∃ agentRoute gRoute agentloginInfo compyidDNrulemap ivr,
      after = { manager with agentRoute, gRoute, agentloginInfo, compyidDNrulemap, ivr } := by
  unfold ManagerDN.reloaddb at reloaded
  obtain ⟨ivr, _, reloaded⟩ := Outcomes.bind_ok reloaded
  obtain rfl := Except.ok.inj reloaded
  exact ⟨_, _, _, _, ivr, rfl⟩

theorem loaddb_ok {lib : Libraries} {answers : DatabaseAnswers} {opened : Bool} {ambient : Ambient}
    {manager after : ManagerDN} (loaded : manager.loaddb lib answers opened ambient = .ok after) :
    ∃ agentRoute gRoute agentloginInfo compyidDNrulemap ivr,
      { manager with agentRoute, gRoute, agentloginInfo, compyidDNrulemap, ivr }.loadDNSet lib opened ambient =
        .ok after := by
  unfold ManagerDN.loaddb at loaded
  obtain ⟨ivr, _, loaded⟩ := Outcomes.bind_ok loaded
  exact ⟨_, _, _, _, ivr, loaded⟩

/-- A dispatch touches the agent, sends commands, and deletes the handle the session owns. -/
theorem inlineTransformAgent_eq (lib : Libraries) (dn : String) (session : IvrSession) (ambient : Ambient)
    (manager : ManagerDN) :
    ∃ agents commands, AgentsOnly manager agents ∧
      manager.inlineTransformAgent lib dn session ambient =
        { agents with commands, deleted := manager.deleted ++ session.newhandle.toList } := by
  have touched := (setagnetStatus_agentsOnly dn AgentStatus.ringing.code ambient manager).trans
    (changestate_agentsOnly lib dn ambient _)
  refine ⟨_, (((manager.setagnetStatus dn AgentStatus.ringing.code ambient).changestate lib dn ambient).eslExecute
    session.handle "break" "" session.uuid).eslExecute session.handle "bridge" ("user/" ++ cStr dn)
    session.uuid |>.commands, touched, ?_⟩
  have deleted : ((manager.setagnetStatus dn AgentStatus.ringing.code ambient).changestate lib dn ambient).deleted =
      manager.deleted := by
    obtain ⟨_, _, _, shape⟩ := touched
    rw [shape]
  unfold ManagerDN.inlineTransformAgent
  cases owned : session.newhandle with
  | none => simp [ManagerDN.eslExecute, ← deleted]
  | some handle => simp [ManagerDN.eslExecute, ManagerDN.deleteHandle, ← deleted]

end CallCenter.Verified
