import CallCenter.Verified.OneCall

/-!
# The record of a call

An ORIGINATE by a signed-in agent opens the record of a call, the events of that call fill it in, and
the first DESTROY inserts it.  All of that goes as it should over any sequence of actions, with one
exception: the ORIGINATE stores the character with code 1 where the record of a call that was never
answered should say `"2"` (`call_records_iff`).
-/

namespace CallCenter.Verified

open Std (ExtTreeMap LawfulEqOrd)
open CallCenter.Foundation CallCenter.Model

/-! ## What is inserted -/

/-- The record an action inserts, with the call it belongs to. -/
def closedBy (before : System) : Action → Option (String × CalloutInfo)
  | .event event ambient =>
    if event.eventId = .channelDestroy then
      before.manager.callInfoMap[event.uuid]?.map fun info =>
        (event.uuid, { info with
          calloutEndTime := ambient.now
          callEndTime := ambient.formatTime
          createAt := ambient.formatTime })
    else none
  | _ => none

/-- What the actions insert, one after the other. -/
def insertions (lib : Libraries) : System → List Action → List (String × CalloutInfo)
  | _, [] => []
  | before, action :: actions =>
    (closedBy before action).toList ++
      match before.step lib action with
      | some after => insertions lib after actions
      | none => []

/-- The action is an event of the call. -/
def ofCall (uuid : String) : Action → Bool
  | .event event _ => event.uuid == uuid
  | _ => false

def isEvent (eventId : EventId) : Action → Bool
  | .event event _ => event.eventId == eventId
  | _ => false

/-- An ORIGINATE of the call by an agent that is signed in. -/
def opensRecord (uuid : String) (before : System) : Action → Bool
  | .event event _ =>
    event.eventId == .channelOriginate && event.uuid == uuid && (before.manager.dnMap[event.callerId]?).isSome
  | _ => false

/-- What an action between the ORIGINATE and the DESTROY makes of the record. -/
def fillIn (uuid : String) (info : CalloutInfo) : Action → CalloutInfo
  | .event event ambient =>
    if event.uuid = uuid then
      match event.eventId with
      | .channelHangup => { info with calloutEndTime := ambient.now, callEndTime := ambient.formatTime }
      | .channelHangupComplete => { info with callDuration := atoi (headerOrEmpty event "variable_billsec") }
      | .channelAnswer => { info with callstate := "1" }
      | _ => info
    else info
  | _ => info

/-! ## One step -/

/-- The actions that are no events leave the records alone. -/
theorem records_of_no_event {lib : Libraries} {before after : System} {action : Action}
    (taken : before.step lib action = some after) (other : ∀ event ambient, action ≠ .event event ambient) :
    after.manager.callInfoMap = before.manager.callInfoMap ∧
      after.manager.callRecords = before.manager.callRecords := by
  cases action with
  | event event ambient => exact absurd rfl (other event ambient)
  | incoming incoming ambient =>
    -- an incoming call stores a session, no record
    obtain ⟨⟨_, _⟩, accepted, rfl⟩ := toOption_map_eq_some taken
    obtain ⟨_, _, ⟨_, rfl⟩ | ⟨_, _, _, _, rfl⟩⟩ := nwayccCallback_ok accepted <;> exact ⟨rfl, rfl⟩
  | _ =>
    have same := callStores_step rfl taken
    exact ⟨same.1, same.2.1⟩

@[simp] theorem closeCallInfo_callInfoMap (event : Event) (ambient : Ambient) (manager : ManagerDN)
    (uuid : String) :
    (manager.closeCallInfo event ambient).callInfoMap[uuid]? =
      if event.uuid = uuid then none else manager.callInfoMap[uuid]? := by
  unfold ManagerDN.closeCallInfo
  split
  · rename_i absent
    split
    · rename_i same
      exact same ▸ absent
    · rfl
  · simp [ExtTreeMap.getElem?_erase]

theorem updateCallInfo_callInfoMap (key uuid : String) (change : CalloutInfo → CalloutInfo)
    (manager : ManagerDN) :
    (manager.updateCallInfo key change).callInfoMap[uuid]? =
      if key = uuid then manager.callInfoMap[uuid]?.map change else manager.callInfoMap[uuid]? := by
  simp only [ManagerDN.updateCallInfo, ExtTreeMap.getElem?_modify, LawfulEqOrd.compare_eq_iff_eq]
  split
  · rename_i same
    rw [same]
  · rfl

/-- An event changes the pending record of a call in one of three ways: it opens a new one, it takes the
record away, or it fills it in. -/
theorem callInfo_processEvent {event : Event} {ambient : Ambient} {before : System} {manager : ManagerDN}
    (processed : before.manager.processEvent event ambient = .ok manager) (uuid : String) :
    manager.callInfoMap[uuid]? =
      if opensRecord uuid before (.event event ambient) then
        some (before.manager.originateInfo event event.destinationNumber ambient)
      else if event.eventId = .channelDestroy ∧ event.uuid = uuid then none
      else before.manager.callInfoMap[uuid]?.map (fillIn uuid · (.event event ambient)) := by
  unfold ManagerDN.processEvent at processed
  have unchanged : ∀ info : Option CalloutInfo, info = info.map fun info => info := fun info => by simp
  -- only an ORIGINATE opens a record and only a DESTROY takes one away; the others fill in or do nothing
  cases kind : event.eventId <;> simp only [kind, Except.ok.injEq] at processed <;>
    simp only [opensRecord, kind, fillIn, reduceCtorEq, false_and, if_false, ite_self]
  case dtmf =>
    rcases onDtmf_ok processed with rfl | ⟨_, _, _, _, rfl⟩
    · exact unchanged _
    · rw [enterNode_callInfoMap]
      exact unchanged _
  case channelOriginate =>
    rcases onOriginate_ok processed with ⟨absent, rfl⟩ | ⟨_, _, present, rfl⟩
    · simp [absent]
    · simp only [ManagerDN.eslExecute, ExtTreeMap.getElem?_insert, LawfulEqOrd.compare_eq_iff_eq, present]
      by_cases same : event.uuid = uuid
      · simp [same]
      · simp [same]
  case channelHangup =>
    subst processed
    rw [ManagerDN.onHangup, updateCallInfo_callInfoMap]
    split
    · rfl
    · exact unchanged _
  case channelHangupComplete =>
    subst processed
    rw [ManagerDN.onHangupComplete, updateCallInfo_callInfoMap]
    split
    · rfl
    · exact unchanged _
  case channelDestroy =>
    subst processed
    rw [ManagerDN.onDestroy, releaseAgent_callInfoMap, closeCallInfo_callInfoMap]
    by_cases same : event.uuid = uuid
    · simp [same]
    · simp [same]
  case channelAnswer =>
    subst processed
    -- the answer marks the record before it changes the agent
    have marked : (before.manager.onAnswer event ambient).callInfoMap =
        ((before.manager.answerTask event ambient).updateCallInfo event.uuid fun info =>
          { info with callstate := "1" }).callInfoMap := rfl
    rw [marked, updateCallInfo_callInfoMap, answerTask_callInfoMap]
    split
    · rfl
    · exact unchanged _
  case playbackStop =>
    rw [onPlaybackStop_ok processed]
    exact unchanged _
  all_goals
    subst processed
    exact unchanged _

theorem callInfo_step {lib : Libraries} {before after : System} {action : Action}
    (taken : before.step lib action = some after) (uuid : String) :
    after.manager.callInfoMap[uuid]? =
      if opensRecord uuid before action then after.manager.callInfoMap[uuid]?
      else if isEvent .channelDestroy action && ofCall uuid action then none
      else before.manager.callInfoMap[uuid]?.map (fillIn uuid · action) := by
  cases action with
  | event event ambient =>
    obtain ⟨manager, processed, rfl⟩ := toOption_map_eq_some taken
    have changed := callInfo_processEvent processed uuid
    simp only [isEvent, ofCall, Bool.and_eq_true, beq_iff_eq]
    split
    · rfl
    · rename_i notOpened
      rwa [if_neg notOpened] at changed
  | _ =>
    rw [(records_of_no_event taken (by simp)).1]
    simp [opensRecord, isEvent, fillIn]

/-- An action that is no event of the call leaves its record alone. -/
theorem callInfo_of_other {lib : Libraries} {before after : System} {action : Action} {uuid : String}
    (taken : before.step lib action = some after) (other : ofCall uuid action = false) :
    after.manager.callInfoMap[uuid]? = before.manager.callInfoMap[uuid]? := by
  have changed := callInfo_step taken uuid
  have notOpened : opensRecord uuid before action = false := by
    cases action with
    | event event ambient =>
      have notThis : (event.uuid == uuid) = false := other
      simp [opensRecord, notThis]
    | _ => rfl
  have untouched : (fillIn uuid · action) = id := by
    funext info
    cases action with
    | event event ambient =>
      have notThis : event.uuid ≠ uuid := by simpa [ofCall] using other
      simp [fillIn, notThis]
    | _ => rfl
  rw [notOpened, other, untouched] at changed
  simpa using changed

/-- The records inserted are those of `closedBy`. -/
theorem callRecords_step {lib : Libraries} {before after : System} {action : Action}
    (taken : before.step lib action = some after) :
    after.manager.callRecords = before.manager.callRecords ++ (closedBy before action).toList.map Prod.snd := by
  cases action with
  | event event ambient =>
    obtain ⟨manager, processed, rfl⟩ := toOption_map_eq_some taken
    unfold ManagerDN.processEvent at processed
    cases kind : event.eventId <;> simp only [kind, Except.ok.injEq] at processed <;>
      simp only [closedBy, kind, reduceCtorEq, if_false, if_true, Option.toList_none, List.map_nil,
        List.append_nil]
    case dtmf =>
      rcases onDtmf_ok processed with rfl | ⟨_, _, _, _, rfl⟩
      · rfl
      · simp only [ManagerDN.enterNode]
        split <;> rfl
    case channelOriginate => rcases onOriginate_ok processed with ⟨_, rfl⟩ | ⟨_, _, _, rfl⟩ <;> rfl
    case channelDestroy =>
      subst processed
      -- the agent is released after the record is closed
      have released : (before.manager.onDestroy event ambient).callRecords =
          (before.manager.closeCallInfo event ambient).callRecords := by
        simp only [ManagerDN.onDestroy, ManagerDN.releaseAgent]
        split <;> rfl
      rw [released, ManagerDN.closeCallInfo]
      cases pending : before.manager.callInfoMap[event.uuid]? <;> simp
    case channelAnswer =>
      subst processed
      simp only [ManagerDN.onAnswer, ManagerDN.answerTask, ManagerDN.enterNode]
      split
      · split
        · rfl
        · split <;> rfl
      · rfl
    case playbackStop => rw [onPlaybackStop_ok processed]
    all_goals
      subst processed
      rfl
  | _ =>
    rw [(records_of_no_event taken (by simp)).2]
    simp [closedBy]

/-! ## Runs -/

theorem callRecords_run {lib : Libraries} {start reached : System} {actions : List Action}
    (run : Run (Steps (System.step lib)) start actions reached) :
    reached.manager.callRecords = start.manager.callRecords ++ (insertions lib start actions).map Prod.snd := by
  induction run with
  | done => simp [insertions]
  | @next before middle after action actions first rest inductionHypothesis =>
    have step : before.step lib action = some middle := first
    rw [inductionHypothesis, callRecords_step step, insertions, step, List.map_append, List.append_assoc]

/-- Only the DESTROY of a call inserts its record. -/
theorem insertions_of_others {lib : Libraries} {uuid : String} {actions : List Action} {start : System}
    (noDestroy : ∀ action ∈ actions, (isEvent .channelDestroy action && ofCall uuid action) = false) :
    ∀ inserted ∈ insertions lib start actions, inserted.1 ≠ uuid := by
  induction actions generalizing start with
  | nil => simp [insertions]
  | cons action actions inductionHypothesis =>
    obtain ⟨notThis, others⟩ := List.forall_mem_cons.mp noDestroy
    intro inserted member
    rw [insertions, List.mem_append] at member
    cases member with
    | inl here =>
      cases action with
      | event event ambient =>
        simp only [closedBy, Option.mem_toList] at here
        split at here
        · rename_i destroys
          obtain ⟨info, _, rfl⟩ := Option.map_eq_some_iff.mp here
          simpa [isEvent, ofCall, destroys] using notThis
        · simp at here
      | _ => simp [closedBy] at here
    | inr later =>
      cases step : start.step lib action with
      | none => simp [step] at later
      | some after =>
        rw [step] at later
        exact inductionHypothesis others inserted later

/-- Between its ORIGINATE and its DESTROY the actions fill the record in. -/
theorem callInfo_filledIn {lib : Libraries} {uuid : String} {start reached : System} {actions : List Action}
    (run : Run (Steps (System.step lib)) start actions reached)
    (apart : ∀ action ∈ actions, (ofCall uuid action && (isEvent .channelOriginate action ||
      isEvent .channelDestroy action)) = false) :
    reached.manager.callInfoMap[uuid]? =
      start.manager.callInfoMap[uuid]?.map fun info => actions.foldl (fillIn uuid) info := by
  induction run with
  | done => simp
  | @next before middle after action actions first rest inductionHypothesis =>
    obtain ⟨notThis, others⟩ := List.forall_mem_cons.mp apart
    have noOriginate : opensRecord uuid before action = false := by
      cases action with
      | event event ambient =>
        by_cases same : event.uuid = uuid
        · simp only [ofCall, same, isEvent, beq_self_eq_true, Bool.true_and, Bool.or_eq_false_iff] at notThis
          simp [opensRecord, notThis.1]
        · simp [opensRecord, same]
      | _ => rfl
    have noDestroy : (isEvent .channelDestroy action && ofCall uuid action) = false := by
      cases call : ofCall uuid action with
      | false => simp
      | true =>
        simp only [call, Bool.true_and, Bool.or_eq_false_iff] at notThis
        simp [notThis.2]
    have filled := callInfo_step first uuid
    rw [noOriginate, noDestroy] at filled
    simp only [Bool.false_eq_true, if_false] at filled
    rw [inductionHypothesis others, filled, Option.map_map]
    rfl

theorem callInfo_absent {lib : Libraries} {uuid : String} {start reached : System} {actions : List Action}
    (run : Run (Guarded (fun before action => opensRecord uuid before action = false) (Steps (System.step lib)))
      start actions reached) (absent : start.manager.callInfoMap[uuid]? = none) :
    reached.manager.callInfoMap[uuid]? = none := by
  refine run.invariant (fun system => system.manager.callInfoMap[uuid]? = none) ?_ absent
  rintro before action after ⟨noOriginate, taken⟩ pending
  have changed := callInfo_step taken uuid
  rw [noOriginate, pending] at changed
  simpa using changed

/-! ## What the record says -/

/-- An ANSWER of the call is among the actions. -/
def answered (uuid : String) (actions : List Action) : Bool :=
  actions.any fun action => ofCall uuid action && isEvent .channelAnswer action

/-- The billsec of a HANGUP_COMPLETE of the call. -/
def billsecOf (uuid : String) : Action → Option Int
  | .event event _ =>
    if event.uuid = uuid ∧ event.eventId = .channelHangupComplete then
      some (atoi (headerOrEmpty event "variable_billsec"))
    else none
  | _ => none

theorem callstate_fillIn (uuid : String) (actions : List Action) (info : CalloutInfo) :
    (actions.foldl (fillIn uuid) info).callstate = if answered uuid actions then "1" else info.callstate := by
  induction actions generalizing info with
  | nil => rfl
  | cons action actions inductionHypothesis =>
    rw [List.foldl_cons, inductionHypothesis, answered, answered, List.any_cons]
    cases action with
    | event event ambient =>
      by_cases same : event.uuid = uuid
      · cases kind : event.eventId <;> simp [fillIn, ofCall, isEvent, same, kind]
      · simp [fillIn, ofCall, same]
    | _ => simp [fillIn, ofCall]

theorem callDuration_fillIn (uuid : String) (actions : List Action) (info : CalloutInfo) :
    (actions.foldl (fillIn uuid) info).callDuration =
      (actions.filterMap (billsecOf uuid)).getLast?.getD info.callDuration := by
  induction actions generalizing info with
  | nil => rfl
  | cons action actions inductionHypothesis =>
    rw [List.foldl_cons, inductionHypothesis, List.filterMap_cons]
    cases action with
    | event event ambient =>
      by_cases same : event.uuid = uuid
      · cases kind : event.eventId <;> simp [fillIn, billsecOf, same, kind, List.getLast?_cons]
      · simp [fillIn, billsecOf, same]
    | _ => simp [fillIn, billsecOf]

/-! ## The life cycle -/

/-- A call of the trace: an ORIGINATE by a signed-in agent and the first DESTROY after it, with no other
ORIGINATE of the call between them. -/
structure RecordedCall (lib : Libraries) (start : System) (actions : List Action) where
  earlier : List Action
  originate : Event
  ambient : Ambient
  between : List Action
  destroy : Event
  closing : Ambient
  later : List Action
  trace : actions = earlier ++ .event originate ambient :: (between ++ .event destroy closing :: later)
  opens : opensRecord originate.uuid (finish (System.step lib) start earlier) (.event originate ambient) = true
  apart : ∀ action ∈ between, (ofCall originate.uuid action &&
    (isEvent .channelOriginate action || isEvent .channelDestroy action)) = false
  ends : destroy.eventId = .channelDestroy
  sameCall : destroy.uuid = originate.uuid

/-- A DESTROY with no ORIGINATE by a signed-in agent since the DESTROY before it, or since the start. -/
structure UnrecordedEnd (lib : Libraries) (start : System) (actions : List Action) where
  earlier : List Action
  between : List Action
  destroy : Event
  closing : Ambient
  later : List Action
  trace : actions = earlier ++ (between ++ .event destroy closing :: later)
  fresh : earlier = [] ∨ ∃ front event ambient, earlier = front ++ [.event event ambient] ∧
    event.eventId = .channelDestroy ∧ event.uuid = destroy.uuid
  quiet : ∀ front action back, between = front ++ action :: back →
    opensRecord destroy.uuid (finish (System.step lib) start (earlier ++ front)) action = false
  ends : destroy.eventId = .channelDestroy

section LifeCycle

variable {lib : Libraries} {start : System} {actions : List Action}

/-- One record is inserted for the call, by its DESTROY, and it says what the events of the call did. -/
structure RecordedCall.RecordedOnce (call : RecordedCall lib start actions) : Prop where
  notBefore : ∀ inserted ∈ insertions lib (finish (System.step lib) start call.earlier)
    (.event call.originate call.ambient :: call.between), inserted.1 ≠ call.originate.uuid
  atDestroy : ∃ record : CalloutInfo,
    insertions lib
        (finish (System.step lib) start (call.earlier ++ .event call.originate call.ambient :: call.between))
        [.event call.destroy call.closing] = [(call.originate.uuid, record)] ∧
      record.callstate = (if answered call.originate.uuid call.between then "1" else "2") ∧
      record.callDuration = (call.between.filterMap (billsecOf call.originate.uuid)).getLast?.getD 0
  others : ∀ front action back, call.between = front ++ action :: back →
    ofCall call.originate.uuid action = false →
    (finish (System.step lib) start (call.earlier ++ .event call.originate call.ambient ::
        (front ++ [action]))).manager.callInfoMap[call.originate.uuid]? =
      (finish (System.step lib) start (call.earlier ++ .event call.originate call.ambient ::
        front)).manager.callInfoMap[call.originate.uuid]?

/-- The records of a trace. -/
structure LifeCycle (lib : Libraries) (start : System) (actions : List Action) : Prop where
  recorded : ∀ call : RecordedCall lib start actions, call.RecordedOnce
  unrecorded : ∀ ending : UnrecordedEnd lib start actions,
    insertions lib (finish (System.step lib) start (ending.earlier ++ ending.between))
      [.event ending.destroy ending.closing] = []

theorem insertions_single (before : System) (action : Action) :
    insertions lib before [action] = (closedBy before action).toList := by
  rw [insertions]
  cases before.step lib action <;> simp [insertions]

theorem RecordedCall.states (call : RecordedCall lib start actions) {reached : System}
    (run : Run (Steps (System.step lib)) start actions reached) :
    ∃ before opened last,
      Run (Steps (System.step lib)) start call.earlier before ∧
      before.step lib (.event call.originate call.ambient) = some opened ∧
      Run (Steps (System.step lib)) opened call.between last := by
  obtain ⟨before, leads, onward⟩ := Run.split (call.trace ▸ run)
  cases onward with
  | next first rest =>
    obtain ⟨last, filled, _⟩ := Run.split rest
    exact ⟨before, _, last, leads, first, filled⟩

/-- The record of a call when its DESTROY comes. -/
theorem RecordedCall.pending (call : RecordedCall lib start actions) {before opened last : System}
    (leads : Run (Steps (System.step lib)) start call.earlier before)
    (first : before.step lib (.event call.originate call.ambient) = some opened)
    (filled : Run (Steps (System.step lib)) opened call.between last) :
    ∃ info : CalloutInfo, last.manager.callInfoMap[call.originate.uuid]? = some info ∧
      info.callstate = (if answered call.originate.uuid call.between then "1" else "\x01") ∧
      info.callDuration = (call.between.filterMap (billsecOf call.originate.uuid)).getLast?.getD 0 := by
  have opens := call.opens
  rw [finish_of_run leads] at opens
  obtain ⟨manager, processed, rfl⟩ := toOption_map_eq_some first
  have started := callInfo_processEvent processed call.originate.uuid
  rw [if_pos opens] at started
  refine ⟨call.between.foldl (fillIn call.originate.uuid)
    (before.manager.originateInfo call.originate call.originate.destinationNumber call.ambient), ?_,
    callstate_fillIn _ _ _, callDuration_fillIn _ _ _⟩
  rw [callInfo_filledIn filled call.apart]
  exact congrArg (Option.map _) started

/-- A call has the record it should have exactly if it was answered. -/
theorem RecordedCall.recordedOnce_iff (call : RecordedCall lib start actions) {reached : System}
    (run : Run (Steps (System.step lib)) start actions reached) :
    call.RecordedOnce ↔ answered call.originate.uuid call.between = true := by
  obtain ⟨before, opened, last, leads, first, filled⟩ := call.states run
  obtain ⟨info, pending, callstate, callDuration⟩ := call.pending leads first filled
  have beforeIs := finish_of_run leads
  have lastIs := finish_of_run (leads.append (.next first filled))
  have inserted : insertions lib last [.event call.destroy call.closing] =
      [(call.originate.uuid, { info with
        calloutEndTime := call.closing.now
        callEndTime := call.closing.formatTime
        createAt := call.closing.formatTime })] := by
    rw [insertions_single]
    simp [closedBy, call.ends, call.sameCall, pending]
  constructor
  · intro once
    obtain ⟨record, atDestroy, state, _⟩ := once.atDestroy
    rw [lastIs, inserted] at atDestroy
    obtain rfl := (Prod.mk.inj (List.singleton_inj.mp atDestroy)).2
    -- the character with code 1 is no not-answered value
    cases marked : answered call.originate.uuid call.between with
    | true => rfl
    | false =>
      rw [marked] at state callstate
      have clash : ("\x01" : String) = "2" := callstate.symm.trans state
      exact absurd clash (by decide)
  · intro marked
    constructor
    · refine insertions_of_others fun action member => ?_
      cases List.mem_cons.mp member with
      | inl same =>
        have opens := call.opens
        simp only [opensRecord, Bool.and_eq_true, beq_iff_eq] at opens
        simp [same, isEvent, opens.1.1]
      | inr between =>
        have apart := call.apart action between
        cases here : ofCall call.originate.uuid action with
        | false => simp
        | true =>
          simp only [here, Bool.true_and, Bool.or_eq_false_iff] at apart
          simp [apart.2]
    · rw [lastIs, inserted]
      refine ⟨_, rfl, ?_, callDuration⟩
      rw [marked] at callstate ⊢
      exact callstate
    · intro front action back split other
      obtain ⟨middle, toMiddle, onward⟩ := Run.split (split ▸ filled)
      cases onward with
      | next taken _ =>
        rw [finish_of_run (leads.append (.next first (toMiddle.append (.single taken)))),
          finish_of_run (leads.append (.next first toMiddle))]
        exact callInfo_of_other taken other

theorem UnrecordedEnd.insertsNothing {presisted : DnuserTable} {prefixNumber : String}
    (ending : UnrecordedEnd lib (System.initial presisted prefixNumber) actions) {reached : System}
    (run : Run (Steps (System.step lib)) (System.initial presisted prefixNumber) actions reached) :
    insertions lib (finish (System.step lib) (System.initial presisted prefixNumber)
      (ending.earlier ++ ending.between)) [.event ending.destroy ending.closing] = [] := by
  obtain ⟨middle, leads, onward⟩ := Run.split (ending.trace ▸ run)
  obtain ⟨last, passes, _⟩ := Run.split onward
  have absent : middle.manager.callInfoMap[ending.destroy.uuid]? = none := by
    cases ending.fresh with
    | inl start =>
      rw [start] at leads
      cases leads with
      | done => exact ExtTreeMap.getElem?_empty
    | inr after =>
      obtain ⟨front, event, ambient, shape, destroys, same⟩ := after
      obtain ⟨before, _, taken⟩ := Run.split (shape ▸ leads)
      cases taken with
      | next taken rest =>
        cases rest with
        | done =>
          have gone := callInfo_step taken ending.destroy.uuid
          rw [if_neg (by simp [opensRecord, destroys]),
            if_pos (by simp [isEvent, ofCall, destroys, same])] at gone
          exact gone
  have quiet : Run (Guarded (fun before action => opensRecord ending.destroy.uuid before action = false)
      (Steps (System.step lib))) middle ending.between last := by
    refine guardedRun_of_met passes fun front action back state split reaches => ?_
    have here := ending.quiet front action back split
    rwa [finish_of_run (leads.append reaches)] at here
  rw [finish_of_run (leads.append passes), insertions_single]
  simp [closedBy, callInfo_absent quiet absent]

end LifeCycle

/-- The records of a run are right exactly if every call that has one was answered. -/
theorem call_records_iff {lib : Libraries} {presisted : DnuserTable} {prefixNumber : String}
    {actions : List Action} {reached : System}
    (run : Run (Steps (System.step lib)) (System.initial presisted prefixNumber) actions reached) :
    LifeCycle lib (System.initial presisted prefixNumber) actions ↔
      ∀ call : RecordedCall lib (System.initial presisted prefixNumber) actions,
        answered call.originate.uuid call.between = true := by
  constructor
  · exact fun cycle call => (call.recordedOnce_iff run).mp (cycle.recorded call)
  · intro everyAnswered
    exact ⟨fun call => (call.recordedOnce_iff run).mpr (everyAnswered call),
      fun ending => ending.insertsNothing run⟩

/-- An event of a call that agent 1001 makes. -/
def outgoingCall (eventId : EventId) : Event where
  eventId
  headers := [("Caller-Unique-ID", "call-1"), ("Caller-Caller-ID-Number", "1001"),
    ("Caller-Destination-Number", "13800000000")]

def agentReady : List Action := [configured companyRoutes straightToAgent, readyAgent "1001"]

theorem call_records_iff_answered :
    let actions := agentReady ++ [.event (outgoingCall .channelOriginate) noon,
      .event (outgoingCall .channelAnswer) noon, .event (outgoingCall .channelDestroy) noon]
    LifeCycle lockedDatabase (System.initial (some []) "") actions ↔
      ∀ call : RecordedCall lockedDatabase (System.initial (some []) "") actions,
        answered call.originate.uuid call.between = true :=
  call_records_iff (run_finish (by decide +kernel))

/-- Nobody answers. -/
def unansweredCall : List Action :=
  agentReady ++ [.event (outgoingCall .channelOriginate) noon, .event (outgoingCall .channelDestroy) noon]

/-- The record of the unanswered call does not say so. -/
theorem unanswered_call_marked :
    ¬ ∀ (lib : Libraries) (presisted : DnuserTable) (prefixNumber : String) (actions : List Action)
      (reached : System), Run (Steps (System.step lib))
      (System.initial presisted prefixNumber) actions reached →
      LifeCycle lib (System.initial presisted prefixNumber) actions := by
  intro cycles
  have run : Run (Steps (System.step lockedDatabase)) (System.initial (some []) "") unansweredCall _ :=
    run_finish (by decide +kernel)
  let call : RecordedCall lockedDatabase (System.initial (some []) "") unansweredCall :=
    { earlier   := agentReady
      originate := outgoingCall .channelOriginate
      ambient   := noon
      between   := []
      destroy   := outgoingCall .channelDestroy
      closing   := noon
      later     := []
      trace     := rfl
      opens     := by decide +kernel
      apart     := by simp
      ends      := rfl
      sameCall  := rfl }
  have marked := (call.recordedOnce_iff run).mp ((cycles lockedDatabase (some []) "" _ _ run).recorded call)
  contradiction

end CallCenter.Verified
