import CallCenter.Verified.Sessions
import CallCenter.Verified.IvrNavigation

/-!
# Who owns a handle

A handle that `nwaycc_callback` allocated should be deleted once, by the callback itself or by
the ACD thread that serves the session.  The owner is lost when a key press transfers a session
out of `m_ivrmap`: that copy still carries the handle of the callback.  As long as key presses
transfer only sessions without one, each handle has one owner at any time.
-/

namespace CallCenter.Verified

open CallCenter.Foundation CallCenter.Model

/-- The handles, where they are: with a callback, with a session in the queue, with the session in
service, or deleted. -/
def handles (system : System) : List Nat :=
  system.closing ++ (system.manager.acdqueue.elements.filterMap IvrSession.newhandle ++
    (system.acd.inService.filterMap IvrSession.newhandle ++ system.manager.deleted))

/-- No handle is in two places, and none is there that was not allocated. -/
structure Owned (system : System) : Prop where
  distinct : (handles system).Nodup
  allocated : ∀ handle ∈ handles system, handle < system.manager.allocated

theorem Owned.moved {before after : System} (owned : Owned before)
    (same : (handles after).Perm (handles before))
    (allocated : after.manager.allocated = before.manager.allocated) : Owned after where
  distinct := same.nodup_iff.mpr owned.distinct
  allocated handle member := allocated ▸ owned.allocated handle (same.subset member)

theorem Owned.opened {before after : System} (owned : Owned before)
    (new : (handles after).Perm (before.manager.allocated :: handles before))
    (allocated : after.manager.allocated = before.manager.allocated + 1) : Owned after where
  distinct := by
    refine new.nodup_iff.mpr (List.nodup_cons.mpr ⟨?_, owned.distinct⟩)
    intro member
    exact absurd (owned.allocated _ member) (lt_irrefl _)
  allocated handle member := by
    rw [allocated]
    rcases List.mem_cons.mp (new.subset member) with rfl | earlier
    · exact Nat.lt_succ_self _
    · exact Nat.lt_succ_of_lt (owned.allocated handle earlier)

/-- The event an action processes. -/
def eventOf? : Action → Option Event
  | .event event _ => some event
  | _ => none

/-- No key press transfers a session that owns a handle. -/
def KeepsOwners (before : System) (action : Action) : Prop :=
  ∀ event ∈ eventOf? action, TransfersNoHandle event before.manager

instance (before : System) (action : Action) : Decidable (KeepsOwners before action) :=
  inferInstanceAs (Decidable (∀ event ∈ eventOf? action, TransfersNoHandle event before.manager))

theorem owned_of_queued {sessions : List IvrSession} {before : System} {manager : ManagerDN}
    {history : History} {tasks : List CallTask} (queued : Queued sessions before.manager manager)
    (free : sessions.filterMap IvrSession.newhandle = []) (owned : Owned before) :
    Owned { before with manager, history, tasks } := by
  refine owned.moved ?_ queued.allocated
  have elements := queued.elements.filterMap IvrSession.newhandle
  rw [List.filterMap_append, free, List.nil_append] at elements
  simp only [handles, queued.deleted]
  exact .append_left _ (elements.append_right _)

theorem newhandles_put (q : AcdQueue) {session : IvrSession} {handle : Nat}
    (owns : session.newhandle = some handle) :
    ((q.put session).elements.filterMap IvrSession.newhandle).Perm
      (handle :: q.elements.filterMap IvrSession.newhandle) := by
  have elements := (AcdQueue.elements_put session q).filterMap IvrSession.newhandle
  rwa [List.filterMap_cons_some owns] at elements

theorem owned_step {lib : Libraries} {before after : System} {action : Action}
    (keeps : KeepsOwners before action) (taken : before.step lib action = some after)
    (owned : Owned before) : Owned after := by
  by_cases concerns : concernsAgents action = true
  · obtain ⟨_, _, agents, rfl⟩ := agentsOnly_step concerns taken
    exact owned_of_queued (.agentsOnly agents) rfl owned
  cases took_of_step taken with
  | signin | signout | setDNstatus | resetDNinfo | loadDNSet => exact absurd rfl concerns
  | reloaddb reloaded =>
    obtain ⟨_, _, _, _, _, rfl⟩ := reloaddb_ok reloaded
    exact owned.moved (.refl _) rfl
  | event processed =>
    obtain ⟨sessions, queued, free⟩ := processEvent_queued processed
    exact owned_of_queued queued (free (keeps _ rfl)) owned
  | incoming accepted =>
    -- the callback keeps the handle it allocated, or the queued session takes it along
    obtain ⟨_, _, ⟨rfl, rfl⟩ | ⟨callid, session, rfl, owns, rfl⟩⟩ := nwayccCallback_ok accepted
    · refine owned.opened ?_ rfl
      simp only [handles, Option.toList_some, List.append_assoc]
      exact List.perm_middle
    · refine owned.opened ?_ rfl
      simp only [handles, Option.toList_none, List.append_nil]
      have elements : ((before.manager.acdqueue.put { session with
          handle := some (.outbound before.manager.allocated)
          uuid := callid }).elements.filterMap IvrSession.newhandle).Perm
            (before.manager.allocated :: before.manager.acdqueue.elements.filterMap IvrSession.newhandle) :=
        newhandles_put before.manager.acdqueue owns
      exact (List.Perm.append_left _ (elements.append_right _)).trans List.perm_middle
  | @release handle closes =>
    refine owned.moved ?_ rfl
    simp only [handles, ManagerDN.deleteHandle, ← List.append_assoc]
    refine (List.perm_append_singleton _ _).trans ?_
    -- from the callbacks that are closing to the deleted handles
    have taken := (List.perm_cons_erase closes).symm
    exact ((taken.append_right _).append_right _).append_right _
  | @acdGet session acdqueue stands got =>
    refine owned.moved ?_ rfl
    simp only [handles, stands]
    -- the handle of the session goes from the queue into service
    have elements := (AcdQueue.elements_get got).filterMap IvrSession.newhandle
    have split : (session :: acdqueue.elements).filterMap IvrSession.newhandle =
        [session].filterMap IvrSession.newhandle ++ acdqueue.elements.filterMap IvrSession.newhandle :=
      List.filterMap_append (l := [session])
    rw [split] at elements
    refine .append_left _ ?_
    simp only [AcdThread.inService, List.filterMap_nil, List.nil_append, ← List.append_assoc]
    exact (List.perm_append_comm.trans elements).append_right _
  | @acdScan session ambient stands =>
    refine owned.moved ?_ rfl
    simp only [handles, inService_firstScan, stands]
    exact .refl _
  | acdWake stands posted =>
    refine owned.moved ?_ rfl
    simp only [handles, inService_afterPass, stands]
    exact .refl _
  | @acdDispatch session dn bridged ambient stands =>
    obtain ⟨agents, commands, touched, shape⟩ := inlineTransformAgent_eq lib dn session ambient before.manager
    obtain ⟨_, _, _, rfl⟩ := touched
    refine owned.moved ?_ (by simp only [System.dispatch, shape])
    -- and from service to the deleted handles
    have own : [session].filterMap IvrSession.newhandle = session.newhandle.toList := by
      cases owns : session.newhandle <;> simp [owns]
    simp only [handles, System.dispatch, shape, stands, AcdThread.inService, own, List.filterMap_nil,
      List.nil_append]
    exact .append_left _ (.append_left _ List.perm_append_comm)
  | taskWake => exact owned.moved (.refl _) rfl
  | _ => exact owned.moved (.refl _) rfl

/-- No handle is deleted twice, and the session that `inline_TransformAgent` is given does not
carry a deleted one. -/
def HandlesSafe (system : System) : Prop :=
  system.manager.deleted.Nodup ∧
    ∀ session dn, system.acd = .selected session dn →
      ∀ handle, session.newhandle = some handle → handle ∉ system.manager.deleted

theorem Owned.handlesSafe {system : System} (owned : Owned system) : HandlesSafe system := by
  have behindClosing := (List.nodup_append.mp owned.distinct).2.1
  have behindQueue := (List.nodup_append.mp behindClosing).2.1
  obtain ⟨_, deletedOnce, apart⟩ := List.nodup_append.mp behindQueue
  refine ⟨deletedOnce, ?_⟩
  intro session dn stands handle owns deleted
  refine apart handle ?_ handle deleted rfl
  rw [stands]
  exact List.mem_filterMap.mpr ⟨session, List.mem_singleton.mpr rfl, owns⟩

/-- In every run whose key presses transfer no session with a handle, the handles are safe. -/
theorem handles_safe {lib : Libraries} {presisted : DnuserTable} {prefixNumber : String}
    {actions : List Action} {reached : System}
    (run : Run (Guarded KeepsOwners (Steps (System.step lib))) (System.initial presisted prefixNumber)
      actions reached) : HandlesSafe reached := by
  have start : Owned (System.initial presisted prefixNumber) :=
    ⟨List.nodup_nil, fun _ member => absurd member List.not_mem_nil⟩
  exact (run.invariant Owned (fun _ _ _ step => owned_step step.1 step.2) start).handlesSafe

theorem handles_safe_direct :
    HandlesSafe (finish (System.step lockedDatabase) (System.initial (some []) "")
      [configured companyRoutes straightToAgent, customerCalls "call-1" "4001", readyAgent "1001", .acdGet,
       .acdScan noon, .acdDispatch true noon]) :=
  handles_safe (guardedRun_finish (by decide +kernel))

/-- The libraries of the menu script, over a locked database. -/
def menuInstallation : Libraries := { lockedDatabase with parse := menuLibraries.parse, flat_of_parse := fun _ _ _ => rfl }

/-- The customer hears the menu and presses the key for an agent after the callback has returned. -/
def keyForAgent : List Action :=
  [configured [{ group := "4001", agent := "1001", groupId := "3", gataname := "ingw", prefixNumber := "88" }]
     menuRows,
   customerCalls "call-1" "4001", .release 0, readyAgent "1001",
   .event
     { eventId := .dtmf
       headers := [("Caller-Unique-ID", "call-1"), ("Caller-Destination-Number", "4001"), ("DTMF-Digit", "0")] } noon,
   .acdGet, .acdScan noon, .acdDispatch true noon]

theorem key_press_deletes_twice :
    ¬ ∀ (presisted : DnuserTable) (prefixNumber : String) (actions : List Action) (reached : System),
      Run (Steps (System.step menuInstallation)) (System.initial presisted prefixNumber) actions reached →
      HandlesSafe reached := by
  intro safe
  have once := (safe (some []) "" keyForAgent _ (run_finish (by decide +kernel))).1
  revert once
  decide +kernel

end CallCenter.Verified
