import CallCenter.Verified.AgentChanges

/-!
# One call at a time

An agent's live calls are the sessions bridged to it that are not destroyed yet and the calls it
originated that still have a record.  `GetavailableAgent` looks at the status only, so what is
needed is that a ready agent has no live call.  Two kinds of steps break that: the status is set
to ready while a call lives on, and a ready agent originates a call (no handler ever stores
`DN_Dialing`).  `Undisturbed` excludes exactly these.
-/

namespace CallCenter.Verified

open Std (ExtTreeMap)
open CallCenter.Foundation CallCenter.Model

/-- The calls bridged to an agent and not destroyed, then the ones it originated. -/
def liveCalls (dn : String) (system : System) : List String :=
  (system.history.bridged.filterMap fun call =>
    if call.1 = dn ∧ call.2 ∉ system.history.destroyed then some call.2 else none) ++
  (system.manager.callInfoMap.toList.filterMap fun call =>
    if call.2.userNumber = dn then some call.1 else none)

theorem mem_liveCalls {dn uuid : String} {system : System} :
    uuid ∈ liveCalls dn system ↔
      ((dn, uuid) ∈ system.history.bridged ∧ uuid ∉ system.history.destroyed) ∨
      ∃ info : CalloutInfo, system.manager.callInfoMap[uuid]? = some info ∧ info.userNumber = dn := by
  rw [liveCalls, List.mem_append, List.mem_filterMap, List.mem_filterMap]
  refine or_congr ⟨?_, ?_⟩ ⟨?_, ?_⟩
  · rintro ⟨⟨agent, call⟩, member, live⟩
    simp only [Option.ite_none_right_eq_some, Option.some.injEq] at live
    obtain ⟨⟨rfl, open'⟩, rfl⟩ := live
    exact ⟨member, open'⟩
  · rintro ⟨member, open'⟩
    exact ⟨(dn, uuid), member, by simp [open']⟩
  · rintro ⟨⟨call, info⟩, member, live⟩
    simp only [Option.ite_none_right_eq_some, Option.some.injEq] at live
    obtain ⟨user, rfl⟩ := live
    exact ⟨info, OrderedMap.mem_toList_iff.mp member, user⟩
  · rintro ⟨info, present, user⟩
    exact ⟨(uuid, info), OrderedMap.mem_toList_iff.mpr present, by simp [user]⟩

/-! ## How live calls come and go -/

/-- The action is the origination of a call by `dn`. -/
def originates (dn : String) (before : System) : Action → Bool
  | .event event _ =>
    event.eventId == .channelOriginate && event.callerId == dn && (before.manager.dnMap[dn]?).isSome
  | _ => false

/-- The action is the end of the call `uuid`. -/
def endsCall (uuid : String) : Action → Bool
  | .event event _ => event.eventId == .channelDestroy && event.uuid == uuid
  | _ => false

/-- The action is a change of status or a reset for `dn`. -/
def requestsStatus (dn : String) (before : System) : Action → Bool
  | .setDNstatus agentId _ _ => before.manager.getDNbyagentid agentId == dn
  | .resetDNinfo agentid _ _ _ _ => agentid == dn
  | _ => false

@[simp] theorem enterNode_callInfoMap (handle : Handle) (uuid : String) (session : IvrSession)
    (pnode : IvrNode) (manager : ManagerDN) :
    (manager.enterNode handle uuid session pnode).callInfoMap = manager.callInfoMap := by
  unfold ManagerDN.enterNode
  split <;> rfl

@[simp] theorem answerTask_callInfoMap (event : Event) (ambient : Ambient) (manager : ManagerDN) :
    (manager.answerTask event ambient).callInfoMap = manager.callInfoMap := by
  simp only [ManagerDN.answerTask]
  split
  · split <;> simp [ManagerDN.setCurrentnode]
  · rfl

@[simp] theorem releaseAgent_callInfoMap (event : Event) (manager : ManagerDN) :
    (manager.releaseAgent event).callInfoMap = manager.callInfoMap := by
  unfold ManagerDN.releaseAgent
  split <;> rfl

/-- An update of a record that keeps its user finds the record there. -/
theorem updateCallInfo_user {manager : ManagerDN} {key uuid : String} {change : CalloutInfo → CalloutInfo}
    {info : CalloutInfo} (kept : ∀ earlier, (change earlier).userNumber = earlier.userNumber)
    (present : (manager.updateCallInfo key change).callInfoMap[uuid]? = some info) :
    ∃ earlier : CalloutInfo, manager.callInfoMap[uuid]? = some earlier ∧
      earlier.userNumber = info.userNumber := by
  simp only [ManagerDN.updateCallInfo, ExtTreeMap.getElem?_modify, compare_eq_iff_eq] at present
  split at present
  · rename_i same
    subst same
    obtain ⟨earlier, found, rfl⟩ := Option.map_eq_some_iff.mp present
    exact ⟨earlier, found, (kept earlier).symm⟩
  · exact ⟨info, present, rfl⟩

/-- After the end of a call its record is gone, and the others are as before. -/
theorem onDestroy_callInfo {event : Event} {ambient : Ambient} {manager : ManagerDN} {uuid : String}
    {info : CalloutInfo} (present : (manager.onDestroy event ambient).callInfoMap[uuid]? = some info) :
    manager.callInfoMap[uuid]? = some info ∧ event.uuid ≠ uuid := by
  simp only [ManagerDN.onDestroy, releaseAgent_callInfoMap] at present
  unfold ManagerDN.closeCallInfo at present
  split at present
  · rename_i absent
    refine ⟨present, ?_⟩
    rintro rfl
    rw [absent] at present
    contradiction
  · simp only [ExtTreeMap.getElem?_erase, compare_eq_iff_eq] at present
    split at present
    · contradiction
    · rename_i different
      exact ⟨present, different⟩

/-- A record of a call by `dn` was there before the event, or the event is its origination. -/
theorem processEvent_callInfo {event : Event} {ambient : Ambient} {manager after : ManagerDN}
    {uuid dn : String} {info : CalloutInfo} (processed : manager.processEvent event ambient = .ok after)
    (present : after.callInfoMap[uuid]? = some info) (user : info.userNumber = dn) :
    (∃ earlier : CalloutInfo, manager.callInfoMap[uuid]? = some earlier ∧ earlier.userNumber = dn ∧
      (event.eventId = .channelDestroy → event.uuid ≠ uuid)) ∨
      (event.eventId = .channelOriginate ∧ event.callerId = dn ∧ (manager.dnMap[dn]?).isSome) := by
  unfold ManagerDN.processEvent at processed
  cases kind : event.eventId <;> simp only [kind, Except.ok.injEq] at processed
  case dtmf =>
    rcases onDtmf_ok processed with rfl | ⟨_, _, _, _, rfl⟩
    · exact .inl ⟨info, present, user, by simp⟩
    · exact .inl ⟨info, by simpa [ManagerDN.setCurrentnode] using present, user, by simp⟩
  case channelOriginate =>
    -- the only event that stores a new record, under its caller's name
    rcases onOriginate_ok processed with ⟨_, rfl⟩ | ⟨caller, _, found, rfl⟩
    · exact .inl ⟨info, present, user, by simp⟩
    · simp only [ManagerDN.eslExecute, ExtTreeMap.getElem?_insert, compare_eq_iff_eq] at present
      split at present
      · cases present
        have byCaller : event.callerId = dn := user
        exact .inr ⟨rfl, byCaller, by rw [← byCaller, found]; rfl⟩
      · exact .inl ⟨info, present, user, by simp⟩
  case channelHangup =>
    subst processed
    obtain ⟨earlier, found, same⟩ := updateCallInfo_user (fun _ => by rfl) present
    exact .inl ⟨earlier, found, same.trans user, by simp⟩
  case channelHangupComplete =>
    subst processed
    obtain ⟨earlier, found, same⟩ := updateCallInfo_user (fun _ => by rfl) present
    exact .inl ⟨earlier, found, same.trans user, by simp⟩
  case channelDestroy =>
    subst processed
    obtain ⟨found, different⟩ := onDestroy_callInfo present
    exact .inl ⟨info, found, user, fun _ => different⟩
  case channelAnswer =>
    subst processed
    obtain ⟨earlier, found, same⟩ := updateCallInfo_user (fun _ => by rfl) present
    exact .inl ⟨earlier, by simpa using found, same.trans user, by simp⟩
  case playbackStop =>
    rw [onPlaybackStop_ok processed] at present
    exact .inl ⟨info, present, user, by simp⟩
  all_goals
    subst processed
    exact .inl ⟨info, present, user, by simp⟩

/-- An event adds a live call only by originating one, and a call it ends is not live after it. -/
theorem live_event {event : Event} {ambient : Ambient} {before : System} {manager : ManagerDN}
    {dn uuid : String} (processed : before.manager.processEvent event ambient = .ok manager)
    (live : uuid ∈ liveCalls dn { before with
      manager, history := System.recordEvent event before.history }) :
    (uuid ∈ liveCalls dn before ∧ endsCall uuid (.event event ambient) = false) ∨
      originates dn before (.event event ambient) = true := by
  -- a call is live through a bridge of the history or through its record
  rcases mem_liveCalls.mp live with ⟨bridged, open'⟩ | ⟨info, present, user⟩
  · left
    unfold System.recordEvent at bridged open'
    rw [mem_liveCalls]
    split at open'
    · rename_i destroys
      simp only [destroys, if_true, List.mem_append, List.mem_singleton, not_or] at bridged open'
      exact ⟨.inl ⟨bridged, open'.1⟩, by simp [endsCall, Ne.symm open'.2]⟩
    · rename_i other
      simp only [other, if_false] at bridged
      exact ⟨.inl ⟨bridged, open'⟩, by simp [endsCall, other]⟩
  · rcases processEvent_callInfo processed present user with ⟨earlier, found, byDn, different⟩ |
        ⟨kind, byDn, agent⟩
    · left
      rw [mem_liveCalls]
      refine ⟨.inr ⟨earlier, found, byDn⟩, ?_⟩
      by_cases destroys : event.eventId = .channelDestroy
      · simp [endsCall, different destroys]
      · simp [endsCall, destroys]
    · right
      simp [originates, kind, byDn, agent]

/-- Where neither the history of bridges and ends nor the records change, no live call is new. -/
theorem live_kept {before after : System} {dn uuid : String} (live : uuid ∈ liveCalls dn after)
    (bridged : after.history.bridged = before.history.bridged)
    (destroyed : after.history.destroyed = before.history.destroyed)
    (records : after.manager.callInfoMap = before.manager.callInfoMap) : uuid ∈ liveCalls dn before := by
  simpa only [liveCalls, bridged, destroyed, records] using live

theorem AgentsOnly.callInfoMap {before after : ManagerDN} (agents : AgentsOnly before after) :
    after.callInfoMap = before.callInfoMap := by
  obtain ⟨_, _, _, rfl⟩ := agents
  rfl

/-- A dispatch adds live calls to the chosen agent only. -/
theorem live_dispatch {lib : Libraries} {before : System} {session : IvrSession} {chosen dn uuid : String}
    {bridged : Bool} {ambient : Ambient}
    (live : uuid ∈ liveCalls dn (before.dispatch lib session chosen bridged ambient)) :
    uuid ∈ liveCalls dn before ∨ chosen = dn := by
  have records : (before.dispatch lib session chosen bridged ambient).manager.callInfoMap =
      before.manager.callInfoMap := by
    obtain ⟨agents, _, touched, shape⟩ := inlineTransformAgent_eq lib chosen session ambient before.manager
    simp only [System.dispatch, shape, touched.callInfoMap]
  rw [mem_liveCalls] at live ⊢
  rw [records] at live
  -- the dispatch adds one bridge, to the agent it has chosen, and no record
  rcases live with ⟨member, open'⟩ | record
  · simp only [System.dispatch] at member
    split at member
    · rcases List.mem_append.mp member with earlier | new
      · exact .inl (.inl ⟨earlier, open'⟩)
      · simp only [List.mem_singleton, Prod.mk.injEq] at new
        exact .inr new.1.symm
    · exact .inl (.inl ⟨member, open'⟩)
  · exact .inl (.inr record)

/-- A call is live after a step if it was before and the step does not end it, if the agent
originates it, or if the step dispatches it to the agent. -/
theorem live_step {lib : Libraries} {before after : System} {action : Action} {dn uuid : String}
    (taken : before.step lib action = some after) (live : uuid ∈ liveCalls dn after) :
    (uuid ∈ liveCalls dn before ∧ endsCall uuid action = false) ∨ originates dn before action = true ∨
      ∃ session bridged ambient, before.acd = .selected session dn ∧ action = .acdDispatch bridged ambient := by
  cases took_of_step taken with
  | event processed => exact (live_event processed live).imp_right .inl
  | acdDispatch stands =>
    rcases live_dispatch live with earlier | rfl
    · exact .inl ⟨earlier, rfl⟩
    · exact .inr (.inr ⟨_, _, _, stands, rfl⟩)
  | signin request ambient =>
    refine .inl ⟨live_kept live ?_ ?_ (signin_agentsOnly lib request ambient before.manager).callInfoMap,
      rfl⟩ <;>
      simp only [System.recordSignin] <;> split <;> rfl
  | signout agentId ambient =>
    exact .inl ⟨live_kept live rfl rfl (signout_agentsOnly lib agentId ambient before.manager).callInfoMap, rfl⟩
  | setDNstatus agentId agentStatus ambient =>
    have records := (setDNstatus_agentsOnly lib agentId agentStatus ambient before.manager).callInfoMap
    exact .inl ⟨live_kept live rfl rfl records, rfl⟩
  | resetDNinfo agentid departmentId departmentName userName ambient =>
    have records :=
      (resetDNinfo_agentsOnly agentid departmentId departmentName userName ambient before.manager).callInfoMap
    exact .inl ⟨live_kept live rfl rfl records, rfl⟩
  | loadDNSet loaded =>
    exact .inl ⟨live_kept live rfl rfl (loadDNSet_agentsOnly loaded).callInfoMap, rfl⟩
  | reloaddb reloaded =>
    obtain ⟨_, _, _, _, _, rfl⟩ := reloaddb_ok reloaded
    exact .inl ⟨live, rfl⟩
  | incoming accepted =>
    obtain ⟨_, _, ⟨_, rfl⟩ | ⟨_, _, _, _, rfl⟩⟩ := nwayccCallback_ok accepted <;> exact .inl ⟨live, rfl⟩
  | _ => exact .inl ⟨live, rfl⟩

/-! ## The invariant -/

/-- The steps that keep a ready agent free: no change of status or reset is asked for it, it is
made ready only by the end of its last live call or without one, and it originates no call while
it is ready. -/
def Undisturbed (dn : String) (before : System) (action : Action) : Prop :=
  restores before action = false ∧
  requestsStatus dn before action = false ∧
  (makesReady dn before action = true → ∀ uuid ∈ liveCalls dn before, endsCall uuid action = true) ∧
  (originates dn before action = true → isReady dn before.manager = false)

instance (dn : String) (before : System) (action : Action) : Decidable (Undisturbed dn before action) :=
  inferInstanceAs (Decidable (_ ∧ _ ∧ _ ∧ _))

/-- A ready agent has no live call. -/
def ReadyIsFree (dn : String) (system : System) : Prop :=
  isReady dn system.manager = true → liveCalls dn system = []

theorem readyIsFree_step {lib : Libraries} {before after : System} {action : Action} {dn : String}
    (undisturbed : Undisturbed dn before action) (taken : before.step lib action = some after)
    (free : ReadyIsFree dn before) : ReadyIsFree dn after := by
  obtain ⟨fresh, _, madeReady, originated⟩ := undisturbed
  intro ready
  rw [List.eq_nil_iff_forall_not_mem]
  intro uuid live
  -- ready before the step, or made ready by it; a live call has no place in either case
  rcases ready_step taken fresh ready with readyBefore | made
  -- the agent was free; it neither originates while ready nor stays ready when it is dispatched
  · rcases live_step taken live with ⟨earlier, _⟩ | byAgent | ⟨_, _, _, stands, rfl⟩
    · rw [free readyBefore] at earlier
      cases earlier
    · rw [originated byAgent] at readyBefore
      contradiction
    · rw [not_ready_of_dispatch taken stands] at ready
      contradiction
  -- what makes the agent ready ends every call it had
  · rcases live_step taken live with ⟨earlier, goesOn⟩ | byAgent | ⟨_, _, _, _, rfl⟩
    · rw [madeReady made uuid earlier] at goesOn
      contradiction
    · -- an origination stores no status
      cases action <;> simp only [originates, Bool.and_eq_true, beq_iff_eq, Bool.false_eq_true] at byAgent
      simp [makesReady, byAgent.1.1] at made
    · contradiction

/-- In every undisturbed run `GetavailableAgent` returns an agent without live calls. -/
theorem returned_agent_is_free {lib : Libraries} {dn : String} (named : dn ≠ "") {presisted : DnuserTable}
    {prefixNumber : String} {actions : List Action} {before after : System} {action : Action}
    (run : Run (Guarded (Undisturbed dn) (Steps (System.step lib))) (System.initial presisted prefixNumber)
      actions before)
    (taken : before.step lib action = some after) (returned : returned? action after = some dn) :
    liveCalls dn after = [] := by
  have start : ReadyIsFree dn (System.initial presisted prefixNumber) := by
    intro ready
    simp [isReady, System.initial] at ready
  -- the invariant holds up to the scan, and the scan adds no call
  have free : ReadyIsFree dn before :=
    run.invariant (ReadyIsFree dn) (fun _ _ _ step free => readyIsFree_step step.1 step.2 free) start
  rw [List.eq_nil_iff_forall_not_mem]
  intro uuid live
  rcases live_step taken live with ⟨earlier, _⟩ | byAgent | ⟨_, _, _, _, rfl⟩
  · rw [free (ready_of_returned taken returned named)] at earlier
    cases earlier
  · cases action <;> contradiction
  · contradiction

/-- A customer is bridged to `1001` and hangs up; the next one is in service. -/
def secondCustomer : List Action :=
  [configured companyRoutes straightToAgent, readyAgent "1001", customerCalls "call-1" "4001", .acdGet,
   .acdScan noon, .acdDispatch true noon, reported .channelDestroy "call-1" "13800000000" "1001",
   customerCalls "call-2" "4001", .acdGet]

theorem returned_agent_is_free_second :
    liveCalls "1001" (finish (System.step lockedDatabase)
      (finish (System.step lockedDatabase) (System.initial (some []) "") secondCustomer)
      [.acdScan noon]) = [] :=
  returned_agent_is_free (by decide) (guardedRun_finish (by decide +kernel)) (step_finish (by decide +kernel))
    (by decide +kernel)

/-- What is asked of the dispatcher: over all runs without a restoration from disk and without a
change of status or a reset for `dn`, whenever `dn` is returned it has no live call. -/
def OffersOnlyFree (lib : Libraries) (dn : String) : Prop :=
  ∀ (presisted : DnuserTable) (prefixNumber : String) (actions : List Action) (before after : System)
    (action : Action),
    Run (Guarded (fun system action => restores system action = false ∧ requestsStatus dn system action = false)
      (Steps (System.step lib))) (System.initial presisted prefixNumber) actions before →
    before.step lib action = some after → returned? action after = some dn → liveCalls dn after = []

/-- The agent signs in once more while it is on a call, and the next customer is in service. -/
def secondSignin : List Action :=
  [configured companyRoutes straightToAgent, readyAgent "1001", customerCalls "call-1" "4001", .acdGet,
   .acdScan noon, .acdDispatch true noon, readyAgent "1001", customerCalls "call-2" "4001", .acdGet]

theorem second_signin_offers_busy_agent : ¬ OffersOnlyFree lockedDatabase "1001" := by
  intro offersFree
  have free := offersFree (some []) "" secondSignin _ _ (.acdScan noon)
    (guardedRun_finish (by decide +kernel)) (step_finish (by decide +kernel)) (by decide +kernel)
  revert free
  decide +kernel

end CallCenter.Verified
