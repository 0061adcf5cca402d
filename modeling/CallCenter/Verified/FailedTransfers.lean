import CallCenter.Model.AcdRun
import CallCenter.Verified.AgentChanges
import CallCenter.Verified.Sessions

/-!
# Transfers that fail

`inline_TransformAgent` prints what the bridge command returned, and `ACDqueue::run` does not look
at what `get` returned.  So a bridge that fails leaves everything the transfer changed before it: the
agent rings, the caller is in no queue, the handle is gone.  And a wait that fails is followed by the
transfer of a session nobody queued.
-/

namespace CallCenter.Verified

open CallCenter.Foundation CallCenter.Model

/-- A successful wait starts a round as `acdGet` does. -/
theorem acdStart_zero (lib : Libraries) (ambient : Ambient) (system : System) :
    system.acdStart 0 ambient = system.step lib .acdGet := by
  cases stands : system.acd with
  | idle =>
    cases got : system.manager.acdqueue.get <;>
      simp [System.acdStart, System.step, AcdQueue.getAfterWait, stands, got]
  | _ => simp [System.acdStart, System.step, stands]

/-- A failed wait leaves the queue as it is, and the thread with the session it constructed. -/
theorem acdStart_failed {ret : Int} {ambient : Ambient} {before started : System} (failed : ret ≠ 0)
    (starts : before.acdStart ret ambient = some started) :
    before.acd = .idle ∧ started = { before with acd := .serving (.construct ambient) } := by
  unfold System.acdStart at starts
  split at starts
  · rename_i idle
    rw [AcdQueue.getAfterWait, if_neg failed, Option.map_some] at starts
    exact ⟨idle, (Option.some.inj starts).symm⟩
  · contradiction

/-! ## What is left of a transfer -/

/-- What a failed transfer should leave: the agent does not ring, neither in the map nor on disk, and
the session is in the queue again with its handle. -/
structure TransferUndone (lib : Libraries) (session : IvrSession) (dn : String) (after : System) : Prop where
  notRinging : ∀ user : DNuser, after.manager.dnMap[dn]? = some user →
    user.agentstatus.value ≠ AgentStatus.ringing.code
  notPersisted : ∀ rows : List (String × String), after.manager.presisted = some rows →
    ∀ user : DNuser, user.dn = dn → user.agentstatus.value = AgentStatus.ringing.code →
      (cStr user.dn, cStr (user.serialize lib)) ∉ rows
  queued : session ∈ after.manager.acdqueue.elements
  handleValid : ∀ handle : Nat, session.newhandle = some handle → handle ∉ after.manager.deleted

/-- What it does leave. -/
structure TransferLeft (lib : Libraries) (session : IvrSession) (dn : String) (before after : System) :
    Prop where
  ringing : ∃ user : DNuser, after.manager.dnMap[dn]? = some user ∧
    user.agentstatus.value = AgentStatus.ringing.code ∧
    after.manager.presisted = (Model.changestate lib user before.manager.presisted).2
  acdqueue : after.manager.acdqueue = before.manager.acdqueue
  deleted : after.manager.deleted = before.manager.deleted ++ session.newhandle.toList

theorem inlineTransformAgent_presisted (lib : Libraries) (dn : String) (session : IvrSession)
    (ambient : Ambient) (manager : ManagerDN) :
    (manager.inlineTransformAgent lib dn session ambient).presisted =
      (Model.changestate lib (storeStatus .ringing ((manager.dnMap[dn]?).getD (.default ambient)))
        manager.presisted).2 := by
  have rung : ((manager.setagnetStatus dn AgentStatus.ringing.code ambient).changestate lib dn ambient).presisted =
      (Model.changestate lib (storeStatus .ringing ((manager.dnMap[dn]?).getD (.default ambient)))
        manager.presisted).2 := by
    simp [ManagerDN.changestate, OrderedMap.getElem?_subscript, storeStatus]
  rw [← rung]
  unfold ManagerDN.inlineTransformAgent
  cases session.newhandle <;> rfl

/-- The outcome of the bridge command makes no difference to what the transfer leaves. -/
theorem transferLeft_dispatch (lib : Libraries) (session : IvrSession) (dn : String) (bridged : Bool)
    (ambient : Ambient) (before : System) :
    TransferLeft lib session dn before (before.dispatch lib session dn bridged ambient) := by
  obtain ⟨agents, commands, touched, shape⟩ := inlineTransformAgent_eq lib dn session ambient before.manager
  refine ⟨⟨storeStatus .ringing ((before.manager.dnMap[dn]?).getD (.default ambient)), ?_, rfl, ?_⟩, ?_, ?_⟩
  · show (before.manager.inlineTransformAgent lib dn session ambient).dnMap[dn]? = _
    rw [inlineTransformAgent_dnMap, OrderedMap.getElem?_subscript, if_pos rfl]
  · exact inlineTransformAgent_presisted lib dn session ambient before.manager
  · show (before.manager.inlineTransformAgent lib dn session ambient).acdqueue = before.manager.acdqueue
    obtain ⟨_, _, _, rfl⟩ := touched
    rw [shape]
  · show (before.manager.inlineTransformAgent lib dn session ambient).deleted = _
    rw [shape]

theorem TransferLeft.not_undone {lib : Libraries} {session : IvrSession} {dn : String} {before after : System}
    (left : TransferLeft lib session dn before after) : ¬ TransferUndone lib session dn after := by
  intro undone
  obtain ⟨user, present, ringing, _⟩ := left.ringing
  exact undone.notRinging user present ringing

/-! ## What a round dispatches -/

def DispatchesNothing (before after : System) : Prop :=
  after.history.dispatched = before.history.dispatched

/-- Between `get` and the end of the round a session is in service until it is dispatched. -/
theorem dispatched_step {lib : Libraries} {before after : System} {action : Action}
    (busy : before.acd ≠ .idle) (taken : before.step lib action = some after) :
    after.history.dispatched ++ after.acd.inService = before.history.dispatched ++ before.acd.inService := by
  cases took_of_step taken with
  | signin request ambient =>
    simp only [System.recordSignin]
    split <;> rfl
  | event processed =>
    simp only [System.recordEvent]
    split <;> rfl
  | acdGet stands got => exact absurd stands busy
  | acdScan stands =>
    rw [inService_firstScan, stands]
    rfl
  | acdWake stands posted =>
    rw [inService_afterPass, stands]
    rfl
  | acdDispatch stands =>
    simp only [System.dispatch, stands, AcdThread.inService, List.append_nil]
  | _ => rfl

/-- A round dispatches the session that `get` left it with, and no other. -/
theorem dispatched_round {lib : Libraries} {started after : System} {actions : List Action}
    (rest : System.AcdRest lib started actions after) :
    after.history.dispatched = started.history.dispatched ++ started.acd.inService := by
  obtain ⟨run, idle⟩ := rest
  have kept := run.related
    (fun before after => after.history.dispatched ++ after.acd.inService =
      before.history.dispatched ++ before.acd.inService)
    (fun _ => rfl) (fun first second => second.trans first)
    (fun _ _ _ step => dispatched_step step.1 step.2)
  rw [← kept, idle, AcdThread.inService, List.append_nil]

/-- In no state is a failed transfer undone, and no round that starts there with a failed wait
dispatches nothing. -/
theorem failures_go_unnoticed (lib : Libraries) (before : System) :
    (∀ (session : IvrSession) (dn : String) (ambient : Ambient) (after : System),
      before.acd = .selected session dn → before.step lib (.acdDispatch false ambient) = some after →
      TransferLeft lib session dn before after ∧ ¬ TransferUndone lib session dn after) ∧
    ∀ (ret : Int) (ambient : Ambient) (started : System) (actions : List Action) (after : System),
      ret ≠ 0 → System.AcdRound lib ret ambient before started actions after →
      after.history.dispatched = before.history.dispatched ++ [.construct ambient] ∧
      ¬ DispatchesNothing before after := by
  constructor
  · intro session dn ambient after selected taken
    simp only [System.step, selected, Option.some.injEq] at taken
    subst taken
    have left := transferLeft_dispatch lib session dn false ambient before
    exact ⟨left, left.not_undone⟩
  · intro ret ambient started actions after failed round
    obtain ⟨_, rfl⟩ := acdStart_failed failed round.starts
    have dispatched : after.history.dispatched = before.history.dispatched ++ [.construct ambient] :=
      dispatched_round round.ends
    refine ⟨dispatched, fun nothing => ?_⟩
    -- the list has grown by one, so it is not the old one
    rw [DispatchesNothing, dispatched] at nothing
    simp at nothing

/-- A call has been taken off the queue for `1001`. -/
def calledAgent : System :=
  { acd := .selected
      { IvrSession.construct noon with
        uuid := "call-1"
        handle := some (.outbound 0)
        newhandle := some 0 } "1001" }

/-- An agent of company 1 is ready and nobody calls. -/
def quietCompany : System :=
  finish (System.step lockedDatabase) (System.initial (some []) "")
    [configured companyRoutes straightToAgent, readyAgent "1001"]

/-- The storage of the session that is not overwritten holds ones. -/
def leftOnes : Ambient := { noon with junk := fun _ => 1 }

theorem failures_go_unnoticed_quiet :
    (∃ after, calledAgent.step lockedDatabase (.acdDispatch false noon) = some after ∧
      ¬ TransferUndone lockedDatabase { IvrSession.construct noon with
        uuid := "call-1", handle := some (.outbound 0), newhandle := some 0 } "1001" after) ∧
    ¬ DispatchesNothing quietCompany (finish (System.step lockedDatabase)
      { quietCompany with acd := .serving (.construct leftOnes) } [.acdScan noon, .acdDispatch true noon]) := by
  refine ⟨⟨_, rfl, ?_⟩, ?_⟩
  · exact ((failures_go_unnoticed lockedDatabase calledAgent).1 _ "1001" noon _ rfl rfl).2
  · exact ((failures_go_unnoticed lockedDatabase quietCompany).2 (-1) leftOnes
      { quietCompany with acd := .serving (.construct leftOnes) } [.acdScan noon, .acdDispatch true noon] _
      (by decide) ⟨by rfl, guardedRun_finish (by decide +kernel), by decide +kernel⟩).2

/-- What is asked of failures: from every reachable state a failed bridge is undone, and a round whose
wait failed dispatches nothing. -/
def UndoesFailures (lib : Libraries) : Prop :=
  ∀ (presisted : DnuserTable) (prefixNumber : String) (actions : List Action) (before : System),
    Run (Steps (System.step lib)) (System.initial presisted prefixNumber) actions before →
    (∀ (session : IvrSession) (dn : String) (ambient : Ambient) (after : System),
      before.acd = .selected session dn → before.step lib (.acdDispatch false ambient) = some after →
      TransferUndone lib session dn after) ∧
    ∀ (ret : Int) (ambient : Ambient) (started : System) (later : List Action) (after : System),
      ret ≠ 0 → System.AcdRound lib ret ambient before started later after → DispatchesNothing before after

/-- A customer is put through to `1001`. -/
def throughToAgent : List Action :=
  [configured companyRoutes straightToAgent, readyAgent "1001", customerCalls "call-1" "4001", .acdGet,
    .acdScan noon]

theorem failed_bridge_leaves_agent_ringing : ¬ UndoesFailures lockedDatabase := by
  intro undoes
  have run : Run (Steps (System.step lockedDatabase)) (System.initial (some []) "") throughToAgent
      (finish (System.step lockedDatabase) (System.initial (some []) "") throughToAgent) :=
    run_finish (by decide +kernel)
  have chosen : selectedDN (finish (System.step lockedDatabase)
      (System.initial (some []) "") throughToAgent).acd =
      some "1001" := by
    decide +kernel
  obtain ⟨session, selected⟩ := selectedDN_eq_some chosen
  have undone := (undoes (some []) "" throughToAgent _ run).1 session "1001" noon _ selected
    (step_finish (by decide +kernel))
  have left : ((finish (System.step lockedDatabase) (finish (System.step lockedDatabase)
      (System.initial (some []) "") throughToAgent) [.acdDispatch false noon]).manager.dnMap["1001"]?.map
        fun user => user.agentstatus.value) = some AgentStatus.ringing.code := by
    decide +kernel
  obtain ⟨user, present, ringing⟩ := Option.map_eq_some_iff.mp left
  exact undone.notRinging user present ringing

end CallCenter.Verified
