import CallCenter.Verified.HandleOwnership

/-!
# A caller is queued once

The virtual agent node is the only one that hands a caller to an agent, provided no row of the
table takes its number or its record file, and it has no successors.  So a session that a key
press has queued stands at that node, where every further key leads nowhere, and a reload to
another such table changes nothing about it.
-/

namespace CallCenter.Verified

open Std (ExtTreeMap)
open CallCenter.Foundation CallCenter.Model

/-! ## The agent node in the two tables -/

/-- No row has the number or the record file of the agent node. -/
def NoAgentRow (rows : List IvrNode) : Prop :=
  ∀ row ∈ rows, row.nodeId ≠ ivrAgentFlowIndex ∧ row.recordfile ≠ ivrAgnetMsg

instance (rows : List IvrNode) : Decidable (NoAgentRow rows) :=
  inferInstanceAs (Decidable (∀ row ∈ rows, row.nodeId ≠ ivrAgentFlowIndex ∧ row.recordfile ≠ ivrAgnetMsg))

/-- A company's table in which the agent node, and it alone, hands the caller to an agent. -/
structure AgentAtEnd (companyId : Int) (nodes : CompanyTable) : Prop where
  agent : nodes[ivrAgentFlowIndex]? = some (agentNode companyId)
  numbered : ∀ (node : Int) (row : IvrNode), nodes[node]? = some row → row.nodeId = node
  only : ∀ (node : Int) (row : IvrNode), nodes[node]? = some row → row.recordfile = ivrAgnetMsg →
    node = ivrAgentFlowIndex

theorem agentAtEnd_oneNodeTable {companyId : Int} {rows : List IvrNode} (clean : NoAgentRow rows) :
    AgentAtEnd companyId (oneNodeTable companyId rows) := by
  have lookup : ∀ node, (oneNodeTable companyId rows)[node]? =
      (rows.filter fun row => row.nodeId = node).getLast?.or
        (if ivrAgentFlowIndex = node then some (agentNode companyId) else none) := by
    intro node
    rw [oneNodeTable, OrderedMap.getElem?_foldl_insert, ExtTreeMap.getElem?_insert]
    simp
  have fromRow : ∀ node row, (rows.filter fun row => row.nodeId = node).getLast? = some row →
      row ∈ rows ∧ row.nodeId = node := by
    intro node row last
    simpa using List.mem_filter.mp (List.mem_of_getLast? last)
  refine ⟨?agent, ?numbered, ?only⟩
  case agent =>
    have free : (rows.filter fun row => row.nodeId = ivrAgentFlowIndex) = [] := by
      simpa using fun row member => (clean row member).1
    rw [lookup, free]
    simp
  case numbered =>
    intro node row found
    rw [lookup, Option.or_eq_some_iff] at found
    rcases found with last | ⟨_, virtual⟩
    · exact (fromRow node row last).2
    · simp only [Option.ite_none_right_eq_some, Option.some.injEq] at virtual
      obtain ⟨rfl, rfl⟩ := virtual
      rfl
  case only =>
    intro node row found agent
    rw [lookup, Option.or_eq_some_iff] at found
    rcases found with last | ⟨_, virtual⟩
    · exact absurd agent (clean row (fromRow node row last).1).2
    · simp only [Option.ite_none_right_eq_some, Option.some.injEq] at virtual
      exact virtual.1.symm

/-- Every table the grouping loop leaves was there before or is made of rows it was given. -/
theorem groupRows_table {fuel : Nat} {rows : List IvrNode} {table : ExtTreeMap Int CompanyTable}
    {company : Int} {nodes : CompanyTable} (found : (groupRows fuel rows table)[company]? = some nodes) :
    table[company]? = some nodes ∨ ∃ own, own ⊆ rows ∧ nodes = oneNodeTable company own := by
  induction fuel generalizing rows table with
  | zero => exact .inl found
  | succ fuel inductionHypothesis =>
    cases rows with
    | nil => exact .inl found
    | cons ite rest =>
      rcases inductionHypothesis found with earlier | ⟨own, included, rfl⟩
      · rw [ExtTreeMap.getElem?_insert] at earlier
        split at earlier
        · rename_i same
          rw [compare_eq_iff_eq] at same
          subst same
          exact .inr ⟨_, (List.takeWhile_sublist _).subset, (Option.some.inj earlier).symm⟩
        · exact .inl earlier
      · exact .inr ⟨own, List.Subset.trans included (List.dropWhile_sublist _).subset, rfl⟩

/-- What the navigation does at and around the agent node. -/
structure EndsAtAgent (ivr : Managerivr) : Prop where
  tables : ∀ (company : Int) (nodes : CompanyTable), ivr.ivrNodetable[company]? = some nodes →
    AgentAtEnd company nodes
  noSuccessor : ∀ company, (ivr.flowtable[underscored company ivrAgentFlowIndex]?.getD {}).next = ∅

/-- The flow table has no successors for any company's agent node. -/
def NoAgentSuccessor (flows : ExtTreeMap String FlowNode) : Prop :=
  ∀ company, (flows[underscored company ivrAgentFlowIndex]?.getD {}).next = ∅

/-- The agent node has no text, so the pass over a company leaves it without successors. -/
theorem companyFlows_noAgentSuccessor {lib : Libraries} (empty : lib.parse "" = none)
    {company : Int × CompanyTable} (atEnd : AgentAtEnd company.1 company.2)
    {flows after : ExtTreeMap String FlowNode} (passed : companyFlows lib flows company = .ok after)
    (before : NoAgentSuccessor flows) : NoAgentSuccessor after := by
  refine OrderedMap.foldlM_keeps NoAgentSuccessor ?_ passed before
  rintro ⟨node, row⟩ listed flows after stored kept asked
  have present := OrderedMap.mem_toList_iff.mp listed
  cases flow : flowNode lib company.1 company.2 (node, row) with
  | error fault => simp [flow, bind, Except.bind] at stored
  | ok flowOfNode =>
    simp only [flow, bind, Except.bind, pure, Except.pure, Except.ok.injEq] at stored
    subst stored
    rw [ExtTreeMap.getElem?_insert]
    split
    · -- the key text is that of an agent node only for the agent node itself
      rename_i same
      rw [compare_eq_iff_eq, underscored_inj] at same
      have number : node = ivrAgentFlowIndex := (atEnd.numbered node row present).symm.trans same.2
      subst number
      rw [atEnd.agent, Option.some.injEq] at present
      subst present
      simp only [flowNode, agentNode, lib.read_empty empty] at flow
      obtain rfl := Except.ok.inj flow
      rfl
    · exact kept asked

/-- `Initivrflow` on a clean table makes the agent node the end of every script. -/
theorem endsAtAgent_initivrflow {lib : Libraries} (empty : lib.parse "" = none) {rows : List IvrNode}
    (clean : NoAgentRow rows) {ivr : Managerivr} (loaded : initivrflow lib rows {} = .ok ivr) :
    EndsAtAgent ivr := by
  simp only [initivrflow] at loaded
  obtain ⟨flows, passed, loaded⟩ := Outcomes.bind_ok loaded
  obtain rfl := Except.ok.inj loaded
  have tables : ∀ company nodes, (groupRows rows.length rows ∅)[company]? = some nodes →
      AgentAtEnd company nodes := by
    intro company nodes found
    rcases groupRows_table found with absent | ⟨own, included, rfl⟩
    · simp at absent
    · exact agentAtEnd_oneNodeTable fun row member => clean row (included member)
  refine ⟨tables, OrderedMap.foldlM_keeps NoAgentSuccessor ?_ passed fun company => by simp⟩
  rintro ⟨company, nodes⟩ listed flows after passed kept
  exact companyFlows_noAgentSuccessor empty
    (tables company nodes (OrderedMap.mem_toList_iff.mp listed)) passed kept

namespace EndsAtAgent

variable {ivr : Managerivr} (ends : EndsAtAgent ivr)
include ends

/-- At the agent node no key leads anywhere. -/
theorem getnodeinfo_agent (company : Int) {dtmf : String} (pressed : dtmf ≠ ivrAnsDftm) :
    ivr.getnodeinfo company ivrAgentFlowIndex dtmf = none := by
  have noSuccessor := ends.noSuccessor company
  simp only [Managerivr.getnodeinfo, pressed, if_false, noSuccessor]
  split
  · rfl
  · split
    · rfl
    · split <;> simp

/-- A node that hands the caller to an agent is the agent node. -/
theorem nodeId_of_agent {company node : Int} {dtmf : String} {pnode : IvrNode}
    (answered : ivr.getnodeinfo company node dtmf = some pnode) (agent : pnode.recordfile = ivrAgnetMsg) :
    pnode.nodeId = ivrAgentFlowIndex := by
  have pointed : ∃ pointer, ivr.node? pointer = some pnode := by
    simp only [Managerivr.getnodeinfo] at answered
    split at answered
    · contradiction
    · split at answered
      · contradiction
      · split at answered
        · obtain ⟨pointer, _, found⟩ := Option.bind_eq_some_iff.mp answered
          exact ⟨pointer, found⟩
        · split at answered <;>
          · obtain ⟨pointer, _, found⟩ := Option.bind_eq_some_iff.mp answered
            exact ⟨pointer, found⟩
  obtain ⟨pointer, found⟩ := pointed
  simp only [Managerivr.node?] at found
  obtain ⟨nodes, ofCompany, ofNode⟩ := Option.bind_eq_some_iff.mp found
  have atEnd := ends.tables _ nodes ofCompany
  rw [atEnd.numbered _ pnode ofNode, atEnd.only _ pnode ofNode agent]

end EndsAtAgent

/-! ## What leaves a call alone -/

/-- How often a call was put into the ACD queue. -/
def timesQueued (uuid : String) (manager : ManagerDN) : Nat :=
  manager.arrivals.countP fun session => session.uuid = uuid

/-- The call was not queued, its session did not change, and neither did the IVR tables. -/
structure LeavesCall (uuid : String) (before after : ManagerDN) : Prop where
  session : after.ivrmap[uuid]? = before.ivrmap[uuid]?
  queued : timesQueued uuid after = timesQueued uuid before
  ivr : after.ivr = before.ivr

namespace LeavesCall

theorem refl (uuid : String) (manager : ManagerDN) : LeavesCall uuid manager manager := ⟨rfl, rfl, rfl⟩

theorem trans {uuid : String} {first second third : ManagerDN} (earlier : LeavesCall uuid first second)
    (later : LeavesCall uuid second third) : LeavesCall uuid first third where
  session := later.session.trans earlier.session
  queued := later.queued.trans earlier.queued
  ivr := later.ivr.trans earlier.ivr

theorem agentsOnly {before after : ManagerDN} (agents : AgentsOnly before after) (uuid : String) :
    LeavesCall uuid before after := by
  obtain ⟨_, _, _, rfl⟩ := agents
  exact ⟨rfl, rfl, rfl⟩

theorem insert {uuid key : String} (other : key ≠ uuid) (session : IvrSession) (manager : ManagerDN) :
    LeavesCall uuid manager { manager with ivrmap := manager.ivrmap.insert key session } :=
  ⟨by simp [ExtTreeMap.getElem?_insert, other], rfl, rfl⟩

theorem setCurrentnode {uuid key : String} (other : key ≠ uuid) (node : Int) (ambient : Ambient)
    (manager : ManagerDN) : LeavesCall uuid manager (manager.setCurrentnode key node ambient) :=
  ⟨by simp [ManagerDN.setCurrentnode, OrderedMap.getElem?_subscript, other], rfl, rfl⟩

theorem enterNode {uuid key : String} (other : key ≠ uuid) (handle : Handle) (session : IvrSession)
    (pnode : IvrNode) (manager : ManagerDN) :
    LeavesCall uuid manager (manager.enterNode handle key session pnode) := by
  simp only [ManagerDN.enterNode]
  split
  · exact ⟨rfl, by simp [timesQueued, ManagerDN.transformAgent, other], rfl⟩
  · exact ⟨rfl, rfl, rfl⟩

/-- The answer of another customer, whose number is not the call's uuid. -/
theorem answerTask {uuid : String} {event : Event} (other : event.uuid ≠ uuid) (caller : event.callerId ≠ uuid)
    (ambient : Ambient) (manager : ManagerDN) : LeavesCall uuid manager (manager.answerTask event ambient) := by
  simp only [ManagerDN.answerTask]
  split
  · split
    · exact insert other _ manager
    · exact ((insert other _ manager).trans (setCurrentnode caller _ ambient _)).trans (enterNode other _ _ _ _)
  · exact refl uuid manager

theorem onDestroy (uuid : String) (event : Event) (ambient : Ambient) (manager : ManagerDN) :
    LeavesCall uuid manager (manager.onDestroy event ambient) := by
  have closed : LeavesCall uuid manager (manager.closeCallInfo event ambient) := by
    simp only [ManagerDN.closeCallInfo]
    split <;> exact ⟨rfl, rfl, rfl⟩
  refine closed.trans ?_
  simp only [ManagerDN.onDestroy, ManagerDN.releaseAgent]
  split <;> exact ⟨rfl, rfl, rfl⟩

theorem nwayccCallback {uuid : String} {incoming : Incoming} {ambient : Ambient} {manager after : ManagerDN}
    {kept : Option Nat} (accepted : manager.nwayccCallback incoming ambient = .ok (kept, after))
    (other : eslEventGetHeader incoming.infoEvent "caller-unique-id" ≠ some uuid) :
    LeavesCall uuid manager after := by
  simp only [ManagerDN.nwayccCallback] at accepted
  split at accepted
  · obtain ⟨_, rfl⟩ := Prod.mk.inj (Except.ok.inj accepted)
    exact ⟨rfl, rfl, rfl⟩
  · split at accepted
    · obtain ⟨_, rfl⟩ := Prod.mk.inj (Except.ok.inj accepted)
      exact ⟨rfl, rfl, rfl⟩
    · obtain ⟨callid, header, accepted⟩ := Outcomes.bind_ok accepted
      obtain ⟨_, rfl⟩ := Prod.mk.inj (Except.ok.inj accepted)
      have different : callid ≠ uuid := by
        rintro rfl
        simp only [headerAsString] at header
        split at header
        · rename_i value present
          exact other (present.trans (congrArg some (Except.ok.inj header)))
        · contradiction
      have parked : ∀ started, LeavesCall uuid (((({ manager with allocated := manager.allocated + 1 } :
          ManagerDN).eslExecute (some (.outbound manager.allocated)) "answer" "" "").eslExecute
            (some (.outbound manager.allocated)) "park" "" "")) started → LeavesCall uuid manager started :=
        fun _ started => ⟨started.session, started.queued, started.ivr⟩
      refine parked _ ?_
      simp only [ManagerDN.startSession]
      split
      · exact insert different _ _
      · exact ((insert different _ _).trans (setCurrentnode different _ ambient _)).trans
          (enterNode different _ _ _ _)

end LeavesCall

/-! ## Key presses of the call -/

/-- One step at which the call only presses keys, never `-1`: events and callbacks of others touch neither
its uuid nor, with a caller number, its session, and reloads deliver tables without agent rows. -/
def OnlyKeyPresses (uuid : String) (_ : System) : Action → Prop
  | .event event _ =>
    if event.uuid = uuid then
      event.eventId ≠ .channelAnswer ∧ (event.eventId = .dtmf → headerOrEmpty event "DTMF-Digit" ≠ ivrAnsDftm)
    else event.callerId ≠ uuid
  | .incoming incoming _ => eslEventGetHeader incoming.infoEvent "caller-unique-id" ≠ some uuid
  | .reloaddb answers => NoAgentRow answers.nodes.rows
  | _ => True

instance (uuid : String) (system : System) : (action : Action) → Decidable (OnlyKeyPresses uuid system action)
  | .event event _ =>
    inferInstanceAs (Decidable (if event.uuid = uuid then
      event.eventId ≠ .channelAnswer ∧ (event.eventId = .dtmf → headerOrEmpty event "DTMF-Digit" ≠ ivrAnsDftm)
      else event.callerId ≠ uuid))
  | .incoming incoming _ =>
    inferInstanceAs (Decidable (eslEventGetHeader incoming.infoEvent "caller-unique-id" ≠ some uuid))
  | .reloaddb answers => inferInstanceAs (Decidable (NoAgentRow answers.nodes.rows))
  | .signin .. | .signout .. | .setDNstatus .. | .resetDNinfo .. | .loadDNSet .. | .release _ | .acdGet
  | .acdScan _ | .acdWake _ | .acdDispatch .. | .createTask .. | .setCallrate .. | .taskBegin .. | .taskPass ..
  | .taskWake _ | .taskRecount _ => isTrue trivial

/-- The call was queued `earlier` times, or once more and then its session stands at the agent node. -/
structure QueuedOnce (uuid : String) (earlier : Nat) (manager : ManagerDN) : Prop where
  ends : EndsAtAgent manager.ivr
  once : timesQueued uuid manager = earlier ∨
    timesQueued uuid manager = earlier + 1 ∧
      ∃ session, manager.ivrmap[uuid]? = some session ∧ session.currentnodeid = ivrAgentFlowIndex

namespace QueuedOnce

variable {uuid : String} {earlier : Nat} {before after : ManagerDN}

theorem left (queued : QueuedOnce uuid earlier before) (leaves : LeavesCall uuid before after) :
    QueuedOnce uuid earlier after where
  ends := leaves.ivr ▸ queued.ends
  once := by
    rw [leaves.queued, leaves.session]
    exact queued.once

/-- A key leads to a node that plays a record, or to the agent node for the first time. -/
theorem pressed {event : Event} {ambient : Ambient} (processed : before.onDtmf event ambient = .ok after)
    (own : event.uuid = uuid) (digit : headerOrEmpty event "DTMF-Digit" ≠ ivrAnsDftm)
    (queued : QueuedOnce uuid earlier before) : QueuedOnce uuid earlier after := by
  rcases onDtmf_ok processed with rfl | ⟨psession, pnode, stored, answered, rfl⟩
  · exact queued
  · subst own
    have notYet : timesQueued event.uuid before = earlier := by
      rcases queued.once with notYet | ⟨_, session, present, atAgent⟩
      · exact notYet
      · rw [stored, Option.some.injEq] at present
        subst present
        rw [atAgent, queued.ends.getnodeinfo_agent _ digit] at answered
        contradiction
    simp only [ManagerDN.enterNode]
    split
    · rename_i agent
      refine ⟨queued.ends, .inr ⟨?_, ?_⟩⟩
      · simp [timesQueued, ManagerDN.transformAgent, ManagerDN.setCurrentnode, ← notYet]
      · refine ⟨{ psession with currentnodeid := pnode.nodeId }, ?_, queued.ends.nodeId_of_agent answered agent⟩
        simp [ManagerDN.transformAgent, ManagerDN.setCurrentnode, OrderedMap.getElem?_subscript, stored]
    · exact ⟨queued.ends, .inl notYet⟩

theorem event {event : Event} {ambient : Ambient} {system : System}
    (allowed : OnlyKeyPresses uuid system (.event event ambient))
    (processed : before.processEvent event ambient = .ok after)
    (queued : QueuedOnce uuid earlier before) : QueuedOnce uuid earlier after := by
  simp only [OnlyKeyPresses] at allowed
  simp only [ManagerDN.processEvent] at processed
  cases kind : event.eventId <;> simp only [kind, Except.ok.injEq] at processed
  case dtmf =>
    by_cases own : event.uuid = uuid
    · simp only [own, if_true, kind, true_implies] at allowed
      exact queued.pressed processed own allowed.2
    · rcases onDtmf_ok processed with rfl | ⟨psession, pnode, _, _, rfl⟩
      · exact queued
      · exact queued.left ((LeavesCall.setCurrentnode own _ ambient _).trans (.enterNode own _ _ _ _))
  case channelOriginate =>
    rcases onOriginate_ok processed with ⟨_, rfl⟩ | ⟨_, _, _, rfl⟩
    · exact queued
    · exact queued.left ⟨rfl, rfl, rfl⟩
  case channelDestroy =>
    subst processed
    exact queued.left (.onDestroy uuid event ambient before)
  case channelAnswer =>
    subst processed
    by_cases own : event.uuid = uuid
    · simp [own, kind] at allowed
    · simp only [own, if_false] at allowed
      have task := LeavesCall.answerTask own allowed ambient before
      exact queued.left ⟨task.session, task.queued, task.ivr⟩
  case playbackStop =>
    rw [onPlaybackStop_ok processed]
    exact queued
  all_goals
    subst processed
    exact queued.left ⟨rfl, rfl, rfl⟩

end QueuedOnce

theorem queuedOnce_step {lib : Libraries} (empty : lib.parse "" = none) {uuid : String} {earlier : Nat}
    {before after : System} {action : Action} (allowed : OnlyKeyPresses uuid before action)
    (taken : before.step lib action = some after) (queued : QueuedOnce uuid earlier before.manager) :
    QueuedOnce uuid earlier after.manager := by
  by_cases concerns : concernsAgents action = true
  · obtain ⟨_, _, agents, rfl⟩ := agentsOnly_step concerns taken
    exact queued.left (.agentsOnly agents uuid)
  cases took_of_step taken with
  | signin | signout | setDNstatus | resetDNinfo | loadDNSet => exact absurd rfl concerns
  | reloaddb reloaded =>
    simp only [ManagerDN.reloaddb] at reloaded
    obtain ⟨ivr, loaded, reloaded⟩ := Outcomes.bind_ok reloaded
    obtain rfl := Except.ok.inj reloaded
    exact ⟨endsAtAgent_initivrflow empty allowed loaded, queued.once⟩
  | event processed => exact queued.event allowed processed
  | incoming accepted => exact queued.left (.nwayccCallback accepted allowed)
  | @acdDispatch session dn bridged ambient stands =>
    obtain ⟨agents, commands, touched, shape⟩ := inlineTransformAgent_eq lib dn session ambient before.manager
    have leaves := LeavesCall.agentsOnly touched uuid
    simp only [System.dispatch, shape]
    exact queued.left ⟨leaves.session, leaves.queued, leaves.ivr⟩
  | _ => exact queued.left ⟨rfl, rfl, rfl⟩

/-- From any state whose tables come from a clean node table, a call that only presses keys is
queued at most once, whatever else goes on. -/
theorem queued_at_most_once {lib : Libraries} (empty : lib.parse "" = none) {uuid : String}
    {rows : List IvrNode} (clean : NoAgentRow rows) {start reached : System}
    (loaded : initivrflow lib rows {} = .ok start.manager.ivr) {actions : List Action}
    (run : Run (Guarded (OnlyKeyPresses uuid) (Steps (System.step lib))) start actions reached) :
    timesQueued uuid reached.manager ≤ timesQueued uuid start.manager + 1 := by
  have queued : QueuedOnce uuid (timesQueued uuid start.manager) reached.manager :=
    run.invariant (fun system => QueuedOnce uuid (timesQueued uuid start.manager) system.manager)
      (fun _ _ _ step => queuedOnce_step empty step.1 step.2)
      ⟨endsAtAgent_initivrflow empty clean loaded, .inl rfl⟩
  rcases queued.once with none | ⟨once, _⟩ <;> omega

/-- A customer listens to the menu. -/
def heardMenu : System :=
  finish (System.step menuInstallation) (System.initial (some []) "")
    [configured [{ group := "4001", agent := "1001", groupId := "3", gataname := "ingw", prefixNumber := "88" }]
       menuRows,
     customerCalls "call-1" "4001", .release 0]

/-- The customer presses a key. -/
def pressesKey (uuid dtmf : String) : Action :=
  .event
    { eventId := .dtmf
      headers := [("Caller-Unique-ID", uuid), ("Caller-Destination-Number", "4001"), ("DTMF-Digit", dtmf)] } noon

theorem queued_at_most_once_menu :
    timesQueued "call-1" (finish (System.step menuInstallation) heardMenu
      [pressesKey "call-1" "1", pressesKey "call-1" "0", pressesKey "call-1" "0",
       reported .channelAnswer "call-2" "13900000000" "1001",
         configured companyRoutes [{ companyId := 3, nodeId := 1 }],
       pressesKey "call-1" "0"]).manager ≤
      timesQueued "call-1" heardMenu.manager + 1 :=
  queued_at_most_once rfl (show NoAgentRow menuRows by decide) rfl (guardedRun_finish (by decide +kernel))

end CallCenter.Verified
