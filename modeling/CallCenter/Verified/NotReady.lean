import CallCenter.Verified.WakeUps

/-!
# An agent's own choice of status

After an agent asked for a status other than ready, what can make it ready again without a
request of its own is the end of a call that names it as the destination: that handler stores
`DN_Waiting_ready` whatever the status is.  And a picker that tested the status before the agent asked
returns the agent after it.  Otherwise the choice stands.
-/

namespace CallCenter.Verified

open Std (ExtTreeMap)
open CallCenter.Foundation CallCenter.Model

/-! ## Conditions -/

/-- The step stores the status that a change of status asked for. -/
def StoresChoice (dn : String) (agentStatus : Int) (threads : Threads) (index : Nat) : Prop :=
  ∃ operation agentId ambient rest, threads.operations[index]? = some operation ∧
    operation.request = .setDNstatus agentId agentStatus ambient ∧
    operation.statements = .store dn agentStatus :: rest

/-- The statement gives the agent the status ready. -/
def givesReady (dn : String) : Statement → Bool
  | .insert strdn user => strdn == dn && user.agentstatus.value == AgentStatus.waitingReady.code
  | .store strdn agentStatus => strdn == dn && agentStatus == AgentStatus.waitingReady.code
  | _ => false

/-- The ACD thread has tested the agent's status, and found it ready. -/
def hasTested (dn : String) : AcdStand → Bool
  | .scanning scan =>
    scan.choice.dn == dn || (scan.ite == some dn && (scan.point == .compare || scan.point == .remember))
  | .returned chosen => chosen == dn
  | _ => false

/-- No operation is about to make the agent ready, and no picker has found it ready. -/
def Unchallenged (dn : String) (threads : Threads) : Prop :=
  (∀ operation ∈ threads.operations, operation.statements.any (givesReady dn) = false) ∧
    hasTested dn threads.acd = false

instance (dn : String) (threads : Threads) : Decidable (Unchallenged dn threads) :=
  inferInstanceAs (Decidable (_ ∧ _))

/-- A login, a change of status to ready, or a reset for `dn`. -/
def renewsReady (dn : String) (before : Threads) : ThreadAction → Bool
  | .begin (.signin request _) => before.manager.checkvaildDN request.agentDn && request.agentDn == dn
  | .begin (.setDNstatus agentId agentStatus _) =>
    before.manager.getDNbyagentid agentId == dn && agentStatus == AgentStatus.waitingReady.code
  | .begin (.resetDNinfo agentid _ _ _ _) => agentid == dn
  | _ => false

/-- The end of a call to `dn`. -/
def endsCallTo (dn : String) : ThreadAction → Bool
  | .begin (.channelDestroy event _) => event.destinationNumber == dn
  | _ => false

/-- `m_DNmap[dn]` where the entry has gone: it comes back with the status found in its storage. -/
def recreates (dn : String) (before : Threads) : ThreadAction → Bool
  | .execute index =>
    match before.operations[index]?.map Operation.statements with
    | some (.subscript strdn _ :: _) => strdn == dn && dn ∉ before.manager.dnMap
    | _ => false
  | _ => false

/-- The choice is not taken back, no call to `dn` ends, and its entry is not created anew. -/
def LeftAlone (dn : String) (before : Threads) (action : ThreadAction) : Prop :=
  renewsReady dn before action = false ∧ endsCallTo dn action = false ∧ recreates dn before action = false

instance (dn : String) (before : Threads) (action : ThreadAction) : Decidable (LeftAlone dn before action) :=
  inferInstanceAs (Decidable (_ ∧ _ ∧ _))

/-! ## Steps -/

/-- Nobody is about to return the agent or to make it ready. -/
def Resting (dn : String) (threads : Threads) : Prop :=
  isReady dn threads.manager = false ∧ Unchallenged dn threads

theorem not_ready_of_isReady {dn : String} {manager : ManagerDN} (resting : isReady dn manager = false)
    {user : DNuser} (present : manager.dnMap[dn]? = some user) :
    user.agentstatus.value ≠ AgentStatus.waitingReady.code := by
  intro ready
  simp [isReady, present, ready] at resting

/-- The statements of an operation that leaves the agent alone give it no ready status. -/
theorem givesReady_statements {dn : String} {threads : Threads} {request : Request}
    (alone : LeftAlone dn threads (.begin request)) :
    (request.statements threads.manager).any (givesReady dn) = false := by
  have noSignal (status : Int) : (Statement.signalIfReady status).any (givesReady dn) = false := by
    rw [Statement.signalIfReady]
    split <;> rfl
  obtain ⟨notRenewed, noEnd, _⟩ := alone
  cases request with
  | signin request ambient =>
    simp only [renewsReady, Bool.and_eq_false_iff] at notRenewed
    simp only [Request.statements]
    split
    · rename_i valid
      have other : (request.agentDn == dn) = false := notRenewed.resolve_left (by simp [valid])
      split <;> simp [givesReady, other, noSignal]
    · rfl
  | signout agentId ambient =>
    simp only [Request.statements]
    split <;> rfl
  | setDNstatus agentId agentStatus ambient =>
    simp only [renewsReady] at notRenewed
    simp only [Request.statements]
    split
    · simp [Statement.setagnetStatus, givesReady, notRenewed, noSignal]
    · rfl
  | resetDNinfo agentid departmentId departmentName userName ambient =>
    simp only [renewsReady] at notRenewed
    simp only [Request.statements]
    split
    · simp [givesReady, notRenewed]
    · rfl
  | channelAnswer event ambient =>
    simp only [Request.statements]
    split
    · simp [Statement.setagnetStatus, givesReady, noSignal, AgentStatus.code]
    · rfl
  | channelDestroy event ambient =>
    simp only [endsCallTo] at noEnd
    simp only [Request.statements]
    split
    · simp [Statement.setagnetStatus, givesReady, noEnd, noSignal]
    · rfl
  | reloaddb vRoute => rfl

/-- A change of an entry that gives no ready status leaves the agent as it is. -/
theorem isReady_modify {dn : String} {manager : ManagerDN} (resting : isReady dn manager = false) (strdn : String)
    {change : DNuser → DNuser}
    (keeps : strdn = dn → ∀ user, (change user).agentstatus.value = AgentStatus.waitingReady.code →
      user.agentstatus.value = AgentStatus.waitingReady.code) :
    isReady dn { manager with dnMap := manager.dnMap.modify strdn change } = false := by
  by_cases same : strdn = dn
  · subst same
    cases present : manager.dnMap[strdn]? with
    | none => simp [isReady, present]
    | some user =>
      have notReady := not_ready_of_isReady resting present
      have stays : (change user).agentstatus.value ≠ AgentStatus.waitingReady.code :=
        fun ready => notReady (keeps rfl user ready)
      simp [isReady, present, stays]
  · simpa [isReady, ExtTreeMap.getElem?_modify, same] using resting

/-- A statement that neither gives the ready status nor creates the entry leaves the agent as it is. -/
theorem isReady_execute {lib : Libraries} {dn : String} {statement : Statement} {manager : ManagerDN}
    (gives : givesReady dn statement = false)
    (there : ∀ ambient, statement = .subscript dn ambient → dn ∈ manager.dnMap)
    (resting : isReady dn manager = false) : isReady dn (statement.execute lib manager) = false := by
  cases statement with
  | insert strdn user =>
    by_cases same : strdn = dn
    · subst same
      simp only [givesReady, beq_self_eq_true, Bool.true_and, beq_eq_false_iff_ne] at gives
      simp only [isReady, Statement.execute, ExtTreeMap.getElem?_insertIfNew]
      split
      · simpa using gives
      · exact resting
    · simpa [isReady, Statement.execute, ExtTreeMap.getElem?_insertIfNew, same] using resting
  | subscript strdn ambient =>
    by_cases same : strdn = dn
    · subst same
      obtain ⟨user, present⟩ := Option.isSome_iff_exists.mp (ExtTreeMap.mem_iff_isSome_getElem?.mp (there ambient rfl))
      have notReady := not_ready_of_isReady resting present
      simpa [isReady, Statement.execute, ManagerDN.updateDN, OrderedMap.getElem?_subscript, present] using notReady
    · simpa [isReady, Statement.execute, ManagerDN.updateDN, OrderedMap.getElem?_subscript, same] using resting
  | store strdn agentStatus =>
    refine isReady_modify resting strdn ?_
    rintro rfl user ready
    simp only [givesReady, beq_self_eq_true, Bool.true_and, beq_eq_false_iff_ne] at gives
    exact absurd ready gives
  | department strdn departmentId departmentName userName =>
    refine isReady_modify resting strdn ?_
    exact fun _ _ ready => ready
  | countCall strdn billsec =>
    refine isReady_modify resting strdn ?_
    exact fun _ _ ready => ready
  | erase strdn =>
    by_cases same : strdn = dn
    · simp [isReady, Statement.execute, same]
    · simpa [isReady, Statement.execute, ExtTreeMap.getElem?_erase, same] using resting
  | _ => exact resting

theorem hasTested_start {dn : String} (named : dn ≠ "") (picker : Picker) (companyid : Int) (manager : ManagerDN) :
    hasTested dn (.scanning (.start picker companyid manager)) = false := by
  have other : ("" == dn) = false := beq_eq_false_iff_ne.mpr named.symm
  simp [hasTested, Scan.start, other]

/-- A picker that comes to an agent that is not ready passes it by. -/
theorem hasTested_step {dn : String} {ambient : Ambient} {manager : ManagerDN} {scan : Scan} {stand : AcdStand}
    (resting : isReady dn manager = false) (untested : hasTested dn (.scanning scan) = false)
    (moves : scan.step ambient manager = some stand) : hasTested dn stand = false := by
  obtain ⟨picker, companyid, ite, point, choice⟩ := scan
  simp only [hasTested, Bool.or_eq_false_iff] at untested
  obtain ⟨notChosen, notAt⟩ := untested
  cases ite with
  | none =>
    obtain rfl := Option.some.inj moves
    dsimp only
    split
    · exact notChosen
    · rfl
  | some key =>
    obtain ⟨user, present, rfl⟩ := Option.map_eq_some_iff.mp moves
    by_cases same : key = dn
    · subst same
      have notReady := not_ready_of_isReady resting present
      cases point with
      | company => dsimp only; split <;> simp [hasTested, notChosen]
      | status => simp [hasTested, notReady, notChosen]
      | compare => simp at notAt
      | remember => simp at notAt
      | advance => simp [hasTested, notChosen]
    · cases point with
      | company => dsimp only; split <;> simp [hasTested, notChosen, same]
      | status =>
        dsimp only
        split
        · split <;> simp [hasTested, notChosen, same]
        · simp [hasTested, notChosen]
      | compare => dsimp only; split <;> simp [hasTested, notChosen, same]
      | remember => simp [hasTested, same]
      | advance => simp [hasTested, notChosen]

theorem resting_step {lib : Libraries} {before after : Threads} {action : ThreadAction} {dn : String}
    (named : dn ≠ "") (alone : LeftAlone dn before action) (taken : before.step lib action = some after)
    (resting : Resting dn before) : Resting dn after := by
  obtain ⟨notReady, pending, untested⟩ := resting
  cases threadTook_of_step taken with
  | begin request =>
    obtain ⟨sameAgents, _⟩ := opening_eq request before.manager
    refine ⟨by simpa [isReady, Threads.begin, sameAgents] using notReady, ?_, untested⟩
    simp only [Threads.begin, List.forall_mem_append, List.forall_mem_singleton]
    exact ⟨pending, givesReady_statements alone⟩
  | execute at? next =>
    obtain ⟨manager, operations, acd⟩ := record_manager _ _ _
    have given := pending _ (List.mem_of_getElem? at?)
    rw [next, List.any_cons, Bool.or_eq_false_iff] at given
    refine ⟨?_, ?_, ?_⟩
    · rw [manager]
      refine isReady_execute given.1 (fun ambient same => ?_) notReady
      by_contra gone
      have created := alone.2.2
      simp [recreates, at?, next, same, gone] at created
    · rw [operations]
      intro operation listed
      rcases List.mem_or_eq_of_mem_set listed with earlier | rfl
      · exact pending operation earlier
      · exact given.2
    · rw [acd]
      exact untested
  | getavailableAgent stands => exact ⟨notReady, pending, hasTested_start named _ _ _⟩
  | scan stands moves =>
    rw [stands] at untested
    exact ⟨notReady, pending, hasTested_step notReady untested moves⟩
  | scanAgain stands posted => exact ⟨notReady, pending, hasTested_start named _ _ _⟩
  | @dispatch ambient chosen stands =>
    refine ⟨?_, pending, rfl⟩
    have different : chosen ≠ dn := by
      rintro rfl
      simp [stands, hasTested] at untested
    simpa [isReady, ManagerDN.setagnetStatus, ManagerDN.signalIfReady, ManagerDN.updateDN, AgentStatus.code,
      OrderedMap.getElem?_subscript, different] using notReady
  | task at? moves => exact ⟨notReady, pending, untested⟩
  | wake at? blocked posted => exact ⟨notReady, pending, untested⟩

/-- The agent is in the status that was asked for. -/
theorem isReady_of_storesChoice {lib : Libraries} {start chosenState : Threads} {index : Nat} {dn : String}
    {agentStatus : Int} (choice : StoresChoice dn agentStatus start index)
    (chosen : agentStatus ≠ AgentStatus.waitingReady.code)
    (stored : start.step lib (.execute index) = some chosenState) : isReady dn chosenState.manager = false := by
  obtain ⟨operation, agentId, ambient, rest, at?, _, next⟩ := choice
  simp only [Threads.step, at?, next, Option.some.injEq] at stored
  rw [← stored, (record_manager _ _ _).1]
  cases present : start.manager.dnMap[dn]? with
  | none => simp [isReady, Statement.execute, present]
  | some user => simp [isReady, Statement.execute, present, DNuser.setagnetStatus, chosen]

/-! ## Runs -/

/-- An agent that asked not to be ready is not returned by `GetavailableAgent`, where nobody was about to
make it ready and no picker had found it ready, as long as it does not take the choice back, no call
to it ends, and its entry is not created anew. -/
theorem unready_agent_not_returned {lib : Libraries} {start chosenState reached : Threads} {index : Nat}
    {dn : String} {agentStatus : Int} {actions : List ThreadAction} (named : dn ≠ "")
    (choice : StoresChoice dn agentStatus start index) (chosen : agentStatus ≠ AgentStatus.waitingReady.code)
    (stored : start.step lib (.execute index) = some chosenState) (undisturbed : Unchallenged dn chosenState)
    (run : Run (Guarded (LeftAlone dn) (Steps (Threads.step lib))) chosenState actions reached) :
    reached.acd ≠ .returned dn := by
  have resting := run.invariant (Resting dn) (fun _ _ _ step => resting_step named step.1 step.2)
    ⟨isReady_of_storesChoice choice chosen stored, undisturbed⟩
  intro returned
  have tested := resting.2.2
  simp [returned, hasTested] at tested

/-- Two agents sign in, and the first asks for a break, up to the store. -/
def asksForBreak : List ThreadAction :=
  [.begin (signsInReady "1001"), .execute 0, .execute 0, .execute 0,
   .begin (signsInReady "1002"), .execute 1, .execute 1, .execute 1,
   .begin (.setDNstatus "1001" AgentStatus.parking.code noon), .execute 2]

/-- The picker passes the first agent by and comes to the second. -/
def scanPasses : List ThreadAction := .getavailableAgent .robin 1 :: List.replicate 5 (.acd noon)

theorem storesChoice_break : StoresChoice "1001" AgentStatus.parking.code
    (finish (Threads.step lockedDatabase) (Threads.initial routedManager []) asksForBreak) 2 :=
  ⟨_, "1001", noon, _, List.getElem?_eq_getElem (by decide +kernel), rfl, rfl⟩

theorem unready_agent_not_returned_second :
    let asked := finish (Threads.step lockedDatabase)
      (Threads.initial routedManager []) (asksForBreak ++ [.execute 2])
    (finish (Threads.step lockedDatabase) asked scanPasses).acd ≠ .returned "1001" :=
  unready_agent_not_returned (by decide) storesChoice_break (by decide) (step_finish (by decide +kernel))
    (by decide +kernel) (guardedRun_finish (by decide +kernel))

/-- What is asked of the event handlers: once an agent asked for a status other than ready, in any run,
`GetavailableAgent` does not return it before it takes the choice back. -/
def RespectsChoice (lib : Libraries) (dn : String) : Prop :=
  ∀ (manager : ManagerDN) (earlier actions : List ThreadAction) (start chosenState reached : Threads)
    (index : Nat) (agentStatus : Int),
    Run (Steps (Threads.step lib)) (Threads.initial manager []) earlier start →
    StoresChoice dn agentStatus start index → agentStatus ≠ AgentStatus.waitingReady.code →
    start.step lib (.execute index) = some chosenState → Unchallenged dn chosenState →
    Run (Guarded (fun threads action => renewsReady dn threads action = false) (Steps (Threads.step lib)))
      chosenState actions reached → reached.acd ≠ .returned dn

/-- A call to the first agent ends, and the picker comes to it. -/
def endedCallScanned : List ThreadAction :=
  [.execute 2,
   .begin (.channelDestroy { eventId := .channelDestroy, headers := [("Caller-Destination-Number", "1001")] } noon),
   .execute 3, .getavailableAgent .robin 1, .acd noon, .acd noon]

theorem ended_call_ends_break : ¬ RespectsChoice lockedDatabase "1001" := by
  intro respected
  have notReturned := respected routedManager asksForBreak endedCallScanned _ _ _ 2 AgentStatus.parking.code
    (run_finish (by decide +kernel)) storesChoice_break (by decide) (step_finish (by decide +kernel))
    (by decide +kernel) (guardedRun_finish (by decide +kernel))
  exact notReturned rfl

end CallCenter.Verified
