import CallCenter.Verified.Steps

/-!
# The store of the IVR sessions

Every entry of `m_ivrmap` should stand under the uuid of its call, and be gone when the call is.  Two
handlers break that: the answer of a customer a task dialled writes the node through
`m_ivrmap[caller_id]`, which creates an entry without a call, and the DESTROY leaves the session
where it is.  `KeepsSessions` excludes both, and sessions of calls that were destroyed before.
-/

namespace CallCenter.Verified

open Std (ExtTreeMap LawfulEqOrd)
open CallCenter.Foundation CallCenter.Model

/-! ## Where an entry comes from -/

/-- The call `nwaycc_callback` accepts. -/
def acceptedCall (incoming : Incoming) (manager : ManagerDN) : Option String :=
  if incoming.attached && incoming.connected &&
      manager.getCompanyIdFromgate incoming.infoEvent.destinationNumber != "" then
    eslEventGetHeader incoming.infoEvent "caller-unique-id"
  else none

/-- A customer a task dialled has answered. -/
def answersTask (event : Event) : Bool :=
  event.eventId == .channelAnswer && headerOrEmpty event "Variable_taskID" != ""

/-- The call whose session an action stores. -/
def startedCall (before : System) : Action → Option String
  | .event event _ => if answersTask event then some event.uuid else none
  | .incoming incoming _ => acceptedCall incoming before.manager
  | _ => none

/-- The key under which an answer creates an entry that belongs to no call. -/
def strayKey (before : System) : Action → Option String
  | .event event _ =>
    if answersTask event && event.callerId != event.uuid && (before.manager.ivrmap[event.callerId]?).isNone &&
        (before.manager.ivr.getnodeinfo
          (atoi (headerOrEmpty event "Variable_company_id")) 1 ivrAnsDftm).isSome then
      some event.callerId
    else none
  | _ => none

/-- Where an entry of the store comes from. -/
inductive EntryOrigin (before : System) (action : Action) (key : String) (session : IvrSession) : Prop where
  | kept {earlier : IvrSession} (there : before.manager.ivrmap[key]? = some earlier)
    (sameCall : session.uuid = earlier.uuid)
  | started (starts : startedCall before action = some key) (ownKey : session.uuid = key)
  | stray (made : strayKey before action = some key)

@[simp] theorem enterNode_ivrmap (handle : Handle) (uuid : String) (session : IvrSession) (pnode : IvrNode)
    (manager : ManagerDN) : (manager.enterNode handle uuid session pnode).ivrmap = manager.ivrmap := by
  unfold ManagerDN.enterNode
  split <;> rfl

theorem inserted_entry {map : ExtTreeMap String IvrSession} {uuid key : String} {session found : IvrSession}
    (present : (map.insert uuid session)[key]? = some found) (named : session.uuid = uuid) :
    (key = uuid ∧ found.uuid = key) ∨
      ∃ earlier : IvrSession, map[key]? = some earlier ∧ found.uuid = earlier.uuid := by
  simp only [ExtTreeMap.getElem?_insert, LawfulEqOrd.compare_eq_iff_eq] at present
  by_cases own : uuid = key
  · simp only [own, if_true, Option.some.injEq] at present
    exact .inl ⟨own.symm, present ▸ named.trans own⟩
  · simp only [own, if_false] at present
    exact .inr ⟨found, present, rfl⟩

/-- `m_ivrmap[target].m_currentnodeid = node` changes an entry that is there, or creates one. -/
theorem ledTo_entry {map : ExtTreeMap String IvrSession} {target key : String} {node : Int}
    {fresh found : IvrSession} (present : (OrderedMap.subscript map target fresh fun session =>
      { session with currentnodeid := node })[key]? = some found) :
    (∃ earlier : IvrSession, map[key]? = some earlier ∧ found.uuid = earlier.uuid) ∨
      (key = target ∧ map[target]? = none) := by
  rw [OrderedMap.getElem?_subscript] at present
  by_cases own : target = key
  · subst own
    cases there : map[target]? with
    | none => exact .inr ⟨rfl, rfl⟩
    | some earlier =>
      simp only [if_true, there, Option.getD_some, Option.some.injEq] at present
      exact .inl ⟨earlier, rfl, present ▸ rfl⟩
  · simp only [own, if_false] at present
    exact .inl ⟨found, present, rfl⟩

/-- A key press leads a session that is there into another node. -/
theorem onDtmf_entry {before : System} {event : Event} {ambient : Ambient} {after : ManagerDN}
    (processed : before.manager.onDtmf event ambient = .ok after) {key : String} {session : IvrSession}
    (present : after.ivrmap[key]? = some session) : EntryOrigin before (.event event ambient) key session := by
  rcases onDtmf_ok processed with rfl | ⟨psession, pnode, there, _, rfl⟩
  · exact .kept present rfl
  · rw [enterNode_ivrmap] at present
    rcases ledTo_entry present with ⟨earlier, found, same⟩ | ⟨rfl, absent⟩
    · exact .kept found same
    · rw [there] at absent
      contradiction

/-- The answer of a customer stores the session of the call, and may create a stray entry. -/
theorem onAnswer_entry {before : System} {event : Event} {ambient : Ambient}
    (kind : event.eventId = .channelAnswer) {key : String} {session : IvrSession}
    (present : (before.manager.answerTask event ambient).ivrmap[key]? = some session) :
    EntryOrigin before (.event event ambient) key session := by
  simp only [ManagerDN.answerTask] at present
  split at present
  · rename_i task
    have starts : startedCall before (.event event ambient) = some event.uuid := by
      simp [startedCall, answersTask, kind, task]
    -- the session is stored under the call, and then led to its node under the number of the caller
    split at present
    · rcases inserted_entry present rfl with ⟨rfl, named⟩ | ⟨earlier, there, same⟩
      · exact .started starts named
      · exact .kept there same
    · rename_i pnode answered
      rw [enterNode_ivrmap] at present
      rcases ledTo_entry present with ⟨led, there, same⟩ | ⟨rfl, absent⟩
      · rcases inserted_entry there rfl with ⟨rfl, named⟩ | ⟨earlier, there, before⟩
        · exact .started starts (same.trans named)
        · exact .kept there (same.trans before)
      · simp only [ExtTreeMap.getElem?_insert, LawfulEqOrd.compare_eq_iff_eq] at absent
        by_cases own : event.uuid = event.callerId
        · simp [own] at absent
        · simp only [own, if_false] at absent
          refine .stray ?_
          simp [strayKey, answersTask, kind, task, Ne.symm own, absent, answered]
  · exact .kept present rfl

/-- An incoming call that is accepted stores its session. -/
theorem nwayccCallback_entry {before : System} {incoming : Incoming} {ambient : Ambient} {kept : Option Nat}
    {after : ManagerDN} (accepted : before.manager.nwayccCallback incoming ambient = .ok (kept, after))
    {key : String} {session : IvrSession} (present : after.ivrmap[key]? = some session) :
    EntryOrigin before (.incoming incoming ambient) key session := by
  unfold ManagerDN.nwayccCallback at accepted
  dsimp only at accepted
  split at accepted
  · obtain ⟨_, rfl⟩ := Prod.mk.inj (Except.ok.inj accepted)
    exact .kept present rfl
  · rename_i open'
    split at accepted
    · obtain ⟨_, rfl⟩ := Prod.mk.inj (Except.ok.inj accepted)
      exact .kept present rfl
    · rename_i named
      obtain ⟨callid, read, accepted⟩ := Outcomes.bind_ok accepted
      obtain ⟨_, rfl⟩ := Prod.mk.inj (Except.ok.inj accepted)
      have starts : startedCall before (.incoming incoming ambient) = some callid := by
        have attached : incoming.attached = true ∧ incoming.connected = true := by simpa using open'
        have company : before.manager.getCompanyIdFromgate incoming.infoEvent.destinationNumber ≠ "" := named
        simp [startedCall, acceptedCall, attached, company, headerAsString_ok read]
      simp only [ManagerDN.startSession] at present
      split at present
      · rcases inserted_entry present rfl with ⟨rfl, named⟩ | ⟨earlier, there, same⟩
        · exact .started starts named
        · exact .kept there same
      · rename_i pnode answered
        rw [enterNode_ivrmap] at present
        rcases ledTo_entry present with ⟨led, there, same⟩ | ⟨_, absent⟩
        · rcases inserted_entry there rfl with ⟨rfl, named⟩ | ⟨earlier, there, before⟩
          · exact .started starts (same.trans named)
          · exact .kept there (same.trans before)
        · rw [ExtTreeMap.getElem?_insert_self] at absent
          contradiction

/-- Every entry is an old one, the session of the call the action starts, or a stray one. -/
theorem entry_origin {lib : Libraries} {before after : System} {action : Action}
    (taken : before.step lib action = some after) {key : String} {session : IvrSession}
    (present : after.manager.ivrmap[key]? = some session) : EntryOrigin before action key session := by
  have kept : after.manager.ivrmap = before.manager.ivrmap → EntryOrigin before action key session :=
    fun same => .kept (same ▸ present) rfl
  by_cases silent : reportsCall action = false
  · exact kept (callStores_step silent taken).2.2
  cases took_of_step taken with
  | incoming accepted => exact nwayccCallback_entry accepted present
  | @event event ambient manager processed =>
    unfold ManagerDN.processEvent at processed
    cases kind : event.eventId <;> simp only [kind, Except.ok.injEq] at processed
    case dtmf => exact onDtmf_entry processed present
    case channelOriginate =>
      rcases onOriginate_ok processed with ⟨_, rfl⟩ | ⟨_, _, _, rfl⟩ <;> exact kept rfl
    case channelDestroy =>
      refine kept ?_
      subst processed
      obtain ⟨_, _, closed⟩ := closeCallInfo_frame event ambient before.manager
      simp only [ManagerDN.onDestroy, closed, ManagerDN.releaseAgent]
      split <;> rfl
    case channelAnswer =>
      subst processed
      exact onAnswer_entry kind present
    case playbackStop => exact kept (by rw [onPlaybackStop_ok processed])
    all_goals
      subst processed
      exact kept rfl
  | _ => exact absurd rfl silent

/-! ## Runs -/

/-- The steps that keep the store in order: no stray entry is created, no call is destroyed while it has
a session, and no session is stored for a call that was destroyed. -/
def KeepsSessions (before : System) (action : Action) : Prop :=
  strayKey before action = none ∧
  (∀ uuid ∈ destroyedCall action, before.manager.ivrmap[uuid]? = none) ∧
  ∀ uuid ∈ startedCall before action, uuid ∉ before.history.destroyed

/-- The call is answered or accepted. -/
def beginsCall (key : String) : Action → Bool
  | .event event _ => event.eventId == .channelAnswer && event.uuid == key
  | .incoming incoming _ =>
    incoming.attached && incoming.connected && eslEventGetHeader incoming.infoEvent "caller-unique-id" == some key
  | _ => false

instance (before : System) (action : Action) : Decidable (KeepsSessions before action) :=
  inferInstanceAs (Decidable (_ ∧ _ ∧ _))

/-- Every entry stands under the uuid of its session, and belongs to a call that was answered or accepted
and has not been destroyed. -/
def SessionsInOrder (past : List Action) (system : System) : Prop :=
  ∀ (key : String) (session : IvrSession), system.manager.ivrmap[key]? = some session →
    session.uuid = key ∧ (∃ action ∈ past, beginsCall key action = true) ∧ key ∉ system.history.destroyed

theorem beginsCall_of_started {before : System} {action : Action} {key : String}
    (starts : startedCall before action = some key) : beginsCall key action = true := by
  cases action with
  | event event ambient =>
    simp only [startedCall, answersTask, Option.ite_none_right_eq_some, Option.some.injEq, Bool.and_eq_true,
      beq_iff_eq] at starts
    simp [beginsCall, starts.1.1, starts.2]
  | incoming incoming ambient =>
    simp only [startedCall, acceptedCall, Option.ite_none_right_eq_some, Bool.and_eq_true] at starts
    simp [beginsCall, starts.1.1.1, starts.1.1.2, starts.2]
  | _ => simp [startedCall] at starts

/-- A call that starts a session is not being destroyed. -/
theorem destroyedCall_of_started {before : System} {action : Action} {key : String}
    (starts : startedCall before action = some key) : destroyedCall action = none := by
  cases action with
  | event event ambient =>
    simp only [startedCall, answersTask, Option.ite_none_right_eq_some, Bool.and_eq_true, beq_iff_eq] at starts
    simp [destroyedCall, starts.1.1]
  | _ => rfl

theorem sessionsInOrder_step {lib : Libraries} {past : List Action} {before after : System} {action : Action}
    (admitted : KeepsSessions before action) (taken : before.step lib action = some after)
    (inOrder : SessionsInOrder past before) : SessionsInOrder (past ++ [action]) after := by
  obtain ⟨noStray, noneDestroyed, fresh⟩ := admitted
  intro key session present
  rw [history_destroyed_step taken, List.mem_append, Option.mem_toList, not_or]
  cases entry_origin taken present with
  | kept there sameCall =>
    obtain ⟨named, ⟨began, member, begins⟩, notDestroyed⟩ := inOrder key _ there
    refine ⟨sameCall.trans named, ⟨began, List.mem_append_left _ member, begins⟩, notDestroyed,
      fun destroys => ?_⟩
    rw [noneDestroyed key destroys] at there
    contradiction
  | started starts ownKey =>
    refine ⟨ownKey, ⟨action, by simp, beginsCall_of_started starts⟩, fresh key starts, ?_⟩
    rw [destroyedCall_of_started starts]
    simp
  | stray made =>
    rw [noStray] at made
    contradiction

theorem sessionsInOrder_run {lib : Libraries} {past actions : List Action} {start reached : System}
    (run : Run (Guarded KeepsSessions (Steps (System.step lib))) start actions reached)
    (inOrder : SessionsInOrder past start) : SessionsInOrder (past ++ actions) reached := by
  induction run generalizing past with
  | done => rwa [List.append_nil]
  | @next before middle after action actions first rest inductionHypothesis =>
    have onward := inductionHypothesis (sessionsInOrder_step first.1 first.2 inOrder)
    rwa [List.append_assoc, List.singleton_append] at onward

/-- In every run that meets the condition the store holds the sessions of the open calls only. -/
theorem sessions_in_order {lib : Libraries} {presisted : DnuserTable} {prefixNumber : String}
    {actions : List Action} {reached : System}
    (run : Run (Guarded KeepsSessions (Steps (System.step lib))) (System.initial presisted prefixNumber)
      actions reached) : SessionsInOrder actions reached :=
  @sessionsInOrder_run lib [] _ _ _ run fun key session present => by
    rw [System.initial, ExtTreeMap.getElem?_empty] at present
    contradiction

theorem sessions_in_order_two_calls :
    let actions := [configured companyRoutes straightToAgent, customerCalls "call-1" "4001",
      reported .channelDestroy "call-2" "13900000000" "1002"]
    SessionsInOrder actions (finish (System.step lockedDatabase) (System.initial (some []) "") actions) :=
  sessions_in_order (guardedRun_finish (by decide +kernel))

/-- The answer of a customer the company dialled for task 7. -/
def customerAnswers : Action :=
  .event
    { eventId := .channelAnswer
      headers := [("Caller-Unique-ID", "call-1"), ("Caller-Caller-ID-Number", "13800000000"),
        ("Variable_taskID", "7"), ("Variable_company_id", "1")] } noon

/-- A session appears under the caller's number, and the session of a call outlives the call. -/
theorem stray_and_lasting_sessions :
    (¬ ∀ (lib : Libraries) (actions : List Action) (reached : System),
      Run (Steps (System.step lib)) (System.initial (some []) "") actions reached →
      ∀ (key : String) (session : IvrSession), reached.manager.ivrmap[key]? = some session →
        session.uuid = key) ∧
    ¬ ∀ (lib : Libraries) (actions : List Action) (reached : System),
      Run (Steps (System.step lib)) (System.initial (some []) "") actions reached →
      ∀ (key : String) (session : IvrSession), reached.manager.ivrmap[key]? = some session →
        key ∉ reached.history.destroyed := by
  constructor
  · intro keyed
    let reached := finish (System.step lockedDatabase) (System.initial (some []) "")
      [configured companyRoutes straightToAgent, customerAnswers]
    have stray : (reached.manager.ivrmap["13800000000"]?).map IvrSession.uuid = some "" := by decide +kernel
    obtain ⟨session, present, noCall⟩ := Option.map_eq_some_iff.mp stray
    have named := keyed lockedDatabase _ reached (run_finish (by decide +kernel)) _ session present
    exact absurd (noCall.symm.trans named) (by decide)
  · intro noneLasts
    let reached := finish (System.step lockedDatabase) (System.initial (some []) "")
      [configured companyRoutes straightToAgent, customerCalls "call-1" "4001",
       reported .channelDestroy "call-1" "13800000000" "4001"]
    have there : (reached.manager.ivrmap["call-1"]?).isSome = true := by decide +kernel
    obtain ⟨session, present⟩ := Option.isSome_iff_exists.mp there
    exact noneLasts lockedDatabase _ reached (run_finish (by decide +kernel)) _ session present
      (by decide +kernel)

end CallCenter.Verified
