import CallCenter.Model.Threads
import CallCenter.Verified.AgentChanges

/-!
# Threads that nobody interrupts

An operation, a picker or a count whose statements follow each other without those of another
thread does what the operations of `ManagerDN` say it does.
-/

namespace CallCenter.Verified

open Std (ExtTreeMap)
open CallCenter.Foundation CallCenter.Model

/-! ## Steps, action by action -/

inductive ThreadTook (lib : Libraries) (before : Threads) : ThreadAction → Threads → Prop where
  | begin (request : Request) : ThreadTook lib before (.begin request) (before.begin request)
  | execute {index : Nat} {operation : Operation} {statement : Statement} {rest : List Statement}
    (at? : before.operations[index]? = some operation) (next : operation.statements = statement :: rest) :
    ThreadTook lib before (.execute index)
      (({ before with
        manager := statement.execute lib before.manager
        operations := before.operations.set index (operation.advance statement rest) } : Threads).record
          operation statement)
  | getavailableAgent {picker : Picker} {companyid : Int} (stands : before.acd = .idle) :
    ThreadTook lib before (.getavailableAgent picker companyid)
      { before with acd := .scanning (.start picker companyid before.manager) }
  | scan {ambient : Ambient} {scan : Scan} {acd : AcdStand} (stands : before.acd = .scanning scan)
    (moves : scan.step ambient before.manager = some acd) :
    ThreadTook lib before (.acd ambient) { before with acd }
  | scanAgain {ambient : Ambient} {picker : Picker} {companyid : Int}
    (stands : before.acd = .waiting picker companyid) (posted : 0 < before.manager.readyDNsema) :
    ThreadTook lib before (.acd ambient) { before with
      manager := { before.manager with readyDNsema := before.manager.readyDNsema - 1 }
      acd := .scanning
        (.start picker companyid { before.manager with readyDNsema := before.manager.readyDNsema - 1 }) }
  | dispatch {ambient : Ambient} {dn : String} (stands : before.acd = .returned dn) :
    ThreadTook lib before (.acd ambient) { before with
      manager := before.manager.setagnetStatus dn AgentStatus.ringing.code ambient
      acd := .idle }
  | task {index : Nat} {answer : Answer OutcallInfo} {channel : String} {thread moved : CallThread}
    (at? : before.calls[index]? = some thread)
    (moves : thread.step answer channel before.manager = some moved) :
    ThreadTook lib before (.task index answer channel) { before with calls := before.calls.set index moved }
  | wake {index : Nat} {thread : CallThread} (at? : before.calls[index]? = some thread)
    (blocked : thread.blocked = true) (posted : 0 < before.manager.calloutsema) :
    ThreadTook lib before (.wake index) { before with
      manager := { before.manager with calloutsema := before.manager.calloutsema - 1 }
      calls := before.calls.set index { thread with task := { thread.task with stand := .recount } }
      history := { before.history with
        unheard := []
        lastWoken := some index
        woken := before.history.woken + 1 } }

theorem threadTook_of_step {lib : Libraries} {before after : Threads} {action : ThreadAction}
    (taken : before.step lib action = some after) : ThreadTook lib before action after := by
  cases action with
  | begin request =>
    obtain rfl := Option.some.inj taken
    exact .begin request
  | execute index =>
    simp only [Threads.step] at taken
    split at taken
    · rename_i at?
      split at taken
      · rename_i next
        obtain rfl := Option.some.inj taken
        exact .execute at? next
      · contradiction
    · contradiction
  | getavailableAgent picker companyid =>
    simp only [Threads.step] at taken
    split at taken
    · rename_i stands
      obtain rfl := Option.some.inj taken
      exact .getavailableAgent stands
    · contradiction
  | acd ambient =>
    simp only [Threads.step] at taken
    split at taken
    · contradiction
    · rename_i stands
      obtain ⟨stand, moves, rfl⟩ := Option.map_eq_some_iff.mp taken
      exact .scan stands moves
    · rename_i stands
      simp only [Option.ite_none_right_eq_some, Option.some.injEq] at taken
      obtain ⟨posted, rfl⟩ := taken
      exact .scanAgain stands posted
    · rename_i stands
      obtain rfl := Option.some.inj taken
      exact .dispatch stands
  | task index answer channel =>
    simp only [Threads.step] at taken
    split at taken
    · rename_i at?
      obtain ⟨moved, moves, rfl⟩ := Option.map_eq_some_iff.mp taken
      exact .task at? moves
    · contradiction
  | wake index =>
    simp only [Threads.step] at taken
    split at taken
    · rename_i at?
      simp only [Option.ite_none_right_eq_some, Option.some.injEq] at taken
      obtain ⟨⟨blocked, posted⟩, rfl⟩ := taken
      exact .wake at? blocked posted
    · contradiction

/-- Executing a statement of one operation takes no other statement away. -/
theorem any_left_of_any {operations : List Operation} {index : Nat} {operation : Operation}
    {statement : Statement} {rest : List Statement} {p : Statement → Bool}
    (at? : operations[index]? = some operation) (next : operation.statements = statement :: rest)
    (left : (operations.any fun operation => operation.statements.any p) = true) :
    p statement = true ∨ ((operations.set index (operation.advance statement rest)).any fun operation =>
      operation.statements.any p) = true := by
  obtain ⟨other, listed, found⟩ := List.any_eq_true.mp left
  obtain ⟨place, atPlace⟩ := List.getElem?_of_mem listed
  by_cases same : index = place
  · subst same
    obtain rfl := Option.some.inj (at?.symm.trans atPlace)
    rw [next, List.any_cons, Bool.or_eq_true] at found
    -- in the operation itself it is the statement executed now, or one of the rest
    refine found.imp_right fun inRest => List.any_eq_true.mpr ⟨operation.advance statement rest, ?_, inRest⟩
    exact List.mem_set (List.getElem?_eq_some_iff.mp at?).1 _
  · refine .inr (List.any_eq_true.mpr ⟨other, ?_, found⟩)
    exact List.mem_of_getElem? ((List.getElem?_set_ne same).trans atPlace)

/-! ## Operations -/

/-- What an answered call-out does to the sessions and the queue reaches neither the agents nor the
semaphores. -/
theorem answerTask_agents (event : Event) (ambient : Ambient) (manager : ManagerDN) :
    (manager.answerTask event ambient).dnMap = manager.dnMap ∧
      (manager.answerTask event ambient).readyDNsema = manager.readyDNsema ∧
      (manager.answerTask event ambient).calloutsema = manager.calloutsema := by
  simp only [ManagerDN.answerTask]
  split
  · split
    · exact ⟨rfl, rfl, rfl⟩
    · simp only [ManagerDN.enterNode]
      split <;> exact ⟨rfl, rfl, rfl⟩
  · exact ⟨rfl, rfl, rfl⟩

/-- What happens before the lookup reaches neither the agents nor the semaphores. -/
theorem opening_eq (request : Request) (manager : ManagerDN) :
    (request.opening manager).dnMap = manager.dnMap ∧
      (request.opening manager).readyDNsema = manager.readyDNsema ∧
      (request.opening manager).calloutsema = manager.calloutsema := by
  cases request with
  | channelAnswer event ambient => exact answerTask_agents event ambient manager
  | channelDestroy event ambient =>
    simp only [Request.opening, ManagerDN.closeCallInfo]
    split <;> exact ⟨rfl, rfl, rfl⟩
  | _ => exact ⟨rfl, rfl, rfl⟩

/-- `SetagnetStatus` as its statements. -/
theorem foldl_setagnetStatus (lib : Libraries) (strdn : String) (agentStatus : Int) (manager : ManagerDN) :
    (Statement.setagnetStatus strdn agentStatus).foldl (Statement.execute lib) manager =
      ({ manager with
        dnMap := manager.dnMap.modify strdn (DNuser.setagnetStatus agentStatus) } : ManagerDN).signalIfReady
          agentStatus := by
  simp only [Statement.setagnetStatus, Statement.signalIfReady, ManagerDN.signalIfReady, List.foldl_cons]
  split <;> rfl

/-- A sign-in under a new extension: the signal, the entry, the row on disk. -/
theorem foldl_newAgent (lib : Libraries) (status : Int) (dn : String) (user : DNuser) (manager : ManagerDN)
    (new : dn ∉ manager.dnMap) :
    (Statement.signalIfReady status ++ [Statement.insert dn user, .insertTable user]).foldl
    (Statement.execute lib) manager =
      { manager.signalIfReady status with
        dnMap := (manager.signalIfReady status).dnMap.insert dn user
        presisted := (insertTable lib user (manager.signalIfReady status).presisted).2 } := by
  -- `insert` of the C++ map does not replace, but the extension is new
  have inserted : manager.dnMap.insertIfNew dn user = manager.dnMap.insert dn user := by
    apply ExtTreeMap.ext_getElem?
    intro key
    simp [ExtTreeMap.getElem?_insertIfNew, ExtTreeMap.getElem?_insert, new]
  simp only [Statement.signalIfReady, ManagerDN.signalIfReady]
  split <;> simp [Statement.execute, ManagerDN.setDNsemaSignal, inserted]

/-- The statements of an operation, one after the other, are the operation. -/
theorem foldl_statements (lib : Libraries) (manager : ManagerDN) (request : Request) :
    (request.statements manager).foldl (Statement.execute lib) (request.opening manager) =
      request.whole lib manager := by
  cases request with
  | signin request ambient =>
    simp only [Request.statements, Request.opening, Request.whole, ManagerDN.signin]
    split
    · cases found : manager.dnMap[request.agentDn]? with
      | none =>
        have absent : request.agentDn ∉ manager.dnMap := by simp [ExtTreeMap.mem_iff_isSome_getElem?, found]
        exact foldl_newAgent lib _ _ _ manager absent
      | some user =>
        simp [Statement.execute, ManagerDN.updateDN, OrderedMap.modify_subscript, DNuser.setagnetStatus]
    · rfl
  | signout agentId ambient =>
    simp only [Request.statements, Request.opening, Request.whole, ManagerDN.signout]
    split
    · simp [Statement.execute, ManagerDN.updateDN, OrderedMap.getElem?_subscript, OrderedMap.erase_subscript]
    · rfl
  | setDNstatus agentId agentStatus ambient =>
    simp only [Request.statements, Request.opening, Request.whole, ManagerDN.setDNstatus]
    split
    · rw [List.cons_append, List.foldl_cons, List.foldl_append, foldl_setagnetStatus]
      simp [Statement.execute, ManagerDN.setagnetStatus, ManagerDN.updateDN, OrderedMap.modify_subscript]
    · rfl
  | resetDNinfo agentid departmentId departmentName userName ambient =>
    simp only [Request.statements, Request.opening, Request.whole, ManagerDN.resetDNinfo]
    cases found : manager.dnMap[agentid]? with
    | none =>
      have absent : agentid ∉ manager.dnMap := by simp [ExtTreeMap.mem_iff_isSome_getElem?, found]
      simp [absent]
    | some user =>
      have present : agentid ∈ manager.dnMap := by simp [ExtTreeMap.mem_iff_isSome_getElem?, found]
      simp [present, Statement.execute, ManagerDN.updateDN, OrderedMap.modify_subscript, DNuser.setagnetStatus]
  | channelAnswer event ambient =>
    -- a destination that is no agent is changed by neither
    have answered := answerTask_agents event ambient manager
    simp only [Request.statements, Request.opening, Request.whole, ManagerDN.onAnswer, ManagerDN.markAnswered]
    split
    · rfl
    · rename_i absent
      have unchanged := OrderedMap.modify_of_notMem (by rwa [answered.1] :
        event.destinationNumber ∉ (manager.answerTask event ambient).dnMap)
        (DNuser.setagnetStatus AgentStatus.talking.code)
      simp only [List.foldl_nil, ManagerDN.updateCallInfo, unchanged]
  | reloaddb vRoute => rfl
  | channelDestroy event ambient =>
    simp only [Request.statements, Request.opening, Request.whole, ManagerDN.onDestroy, ManagerDN.releaseAgent,
      closeCallInfo_dnMap]
    split
    · rw [List.foldl_append, foldl_setagnetStatus]
      simp [Statement.execute, ManagerDN.signalIfReady, ManagerDN.setDNsemaSignal, ManagerDN.setcalloutsemafree,
        OrderedMap.modify_modify, closeCallInfo_dnMap]
      rfl
    · rfl

theorem record_manager (operation : Operation) (statement : Statement) (threads : Threads) :
    (threads.record operation statement).manager = threads.manager ∧
      (threads.record operation statement).operations = threads.operations ∧
      (threads.record operation statement).acd = threads.acd := by
  unfold Threads.record
  split <;> exact ⟨rfl, rfl, rfl⟩

/-- The operation in the last place executes what it has left. -/
theorem executes_rest (lib : Libraries) (others : List Operation) (rest : List Statement)
    {operation : Operation} (left : operation.statements = rest) {threads : Threads}
    (last : threads.operations = others ++ [operation]) :
    ∃ reached, Run (Steps (Threads.step lib)) threads
      (List.replicate rest.length (.execute others.length)) reached ∧
      reached.manager = rest.foldl (Statement.execute lib) threads.manager ∧
      reached.operations =
        others ++ [{ operation with executed := operation.executed ++ rest, statements := [] }] ∧
      reached.acd = threads.acd := by
  induction rest generalizing threads operation with
  | nil =>
    refine ⟨threads, .done threads, rfl, ?_, rfl⟩
    rw [last, List.append_nil, ← left]
  | cons statement rest inductionHypothesis =>
    let executed : Threads := { threads with
      manager := statement.execute lib threads.manager
      operations := threads.operations.set others.length (operation.advance statement rest) }
    have taken : threads.step lib (.execute others.length) = some (executed.record operation statement) := by
      simp [Threads.step, last, left, executed]
    -- the bookkeeping of the history changes nothing the statements read
    obtain ⟨sameManager, sameOperations, sameAcd⟩ := record_manager operation statement executed
    obtain ⟨reached, run, manager, operations, acd⟩ := @inductionHypothesis (operation.advance statement rest)
      rfl _ (sameOperations.trans (by simp [executed, last]))
    refine ⟨reached, .next taken run, ?_, ?_, acd.trans sameAcd⟩
    · rw [manager, sameManager, List.foldl_cons]
    · rw [operations, Operation.advance, List.append_assoc, List.singleton_append]

/-- An operation that is not interrupted does what `System` takes as one step. -/
theorem operation_alone (lib : Libraries) (threads : Threads) (request : Request) :
    ∃ actions reached, Run (Steps (Threads.step lib)) threads (.begin request :: actions) reached ∧
      reached.manager = request.whole lib threads.manager ∧
      (∃ operation : Operation, reached.operations = threads.operations ++ [operation] ∧
        operation.statements = []) ∧
      reached.acd = threads.acd := by
  obtain ⟨reached, run, manager, operations, acd⟩ :=
    executes_rest lib threads.operations _ rfl (rfl : (threads.begin request).operations = _)
  refine ⟨_, reached, .next rfl run, ?_, ⟨_, operations, rfl⟩, acd⟩
  rw [manager, ← foldl_statements]
  rfl

/-- What an operation has executed and what it has left are the statements its lookup led to. -/
def FromLookup (operation : Operation) : Prop :=
  ∃ manager, operation.executed ++ operation.statements = operation.request.statements manager ∧
    operation.releases = operation.request.releases manager

theorem FromLookup.advance {operation : Operation} {statement : Statement} {rest : List Statement}
    (next : operation.statements = statement :: rest) (from? : FromLookup operation) :
    FromLookup (operation.advance statement rest) := by
  obtain ⟨manager, whole, releases⟩ := from?
  refine ⟨manager, ?_, releases⟩
  rw [Operation.advance, List.append_assoc, List.singleton_append, ← next]
  exact whole

theorem fromLookup_step {lib : Libraries} {before after : Threads} {action : ThreadAction}
    (taken : before.step lib action = some after) (lookups : ∀ operation ∈ before.operations, FromLookup operation) :
    ∀ operation ∈ after.operations, FromLookup operation := by
  cases threadTook_of_step taken with
  | begin request =>
    simp only [Threads.begin, List.forall_mem_append, List.forall_mem_singleton]
    exact ⟨lookups, before.manager, rfl, rfl⟩
  | execute at? next =>
    rw [(record_manager _ _ _).2.1]
    intro operation listed
    rcases List.mem_or_eq_of_mem_set listed with earlier | rfl
    · exact lookups operation earlier
    · exact (lookups _ (List.mem_of_getElem? at?)).advance next
  | _ => exact lookups

theorem fromLookup_run {lib : Libraries} {manager : ManagerDN} {tasks : List CallTask}
    {actions : List ThreadAction} {reached : Threads}
    (run : Run (Steps (Threads.step lib)) (Threads.initial manager tasks) actions reached) :
    ∀ operation ∈ reached.operations, FromLookup operation :=
  run.invariant (fun threads => ∀ operation ∈ threads.operations, FromLookup operation)
    (fun _ _ _ step => fromLookup_step step) fun _ listed => absurd listed List.not_mem_nil

/-! ## Pickers -/

/-- The ACD thread alone takes it from one stand to another. -/
def AcdAlone (lib : Libraries) (ambient : Ambient) (threads : Threads) (from? to? : AcdStand) : Prop :=
  ∃ steps : Nat, Run (Steps (Threads.step lib)) { threads with acd := from? }
    (List.replicate steps (.acd ambient))
    { threads with acd := to? }

namespace AcdAlone

variable {lib : Libraries} {ambient : Ambient} {threads : Threads}

theorem trans {first second third : AcdStand} (earlier : AcdAlone lib ambient threads first second)
    (later : AcdAlone lib ambient threads second third) : AcdAlone lib ambient threads first third := by
  obtain ⟨stepsEarlier, runEarlier⟩ := earlier
  obtain ⟨stepsLater, runLater⟩ := later
  refine ⟨stepsEarlier + stepsLater, ?_⟩
  rw [← List.replicate_append_replicate]
  exact runEarlier.append runLater

theorem scan {scan : Scan} {stand : AcdStand} (moves : scan.step ambient threads.manager = some stand) :
    AcdAlone lib ambient threads (.scanning scan) stand := by
  refine ⟨1, .single ?_⟩
  simp [Steps, Threads.step, moves]

end AcdAlone

section Alone

variable (lib : Libraries) (ambient : Ambient) (threads : Threads) (companyid : Int)

/-- The loop body at one agent, for a picker that compares. -/
theorem comparing_visit {picker : Picker} (choice : Choice) {dn : String} {user : DNuser}
    (compares : picker ≠ .robin) (present : threads.manager.dnMap[dn]? = some user) :
    AcdAlone lib ambient threads (.scanning { picker, companyid, ite := some dn, choice })
      (.scanning
        { picker, companyid
          ite := OrderedMap.next? threads.manager.dnMap dn
          choice := choice.visit companyid (picker.improves ambient.now) (picker.measure ambient.now)
            (dn, user) }) := by
  -- the stands of one turn of the loop: at each point of the body, and at the next entry
  let moved (choice : Choice) : AcdStand :=
    .scanning { picker, companyid, ite := OrderedMap.next? threads.manager.dnMap dn, choice }
  let at_ (point : ScanPoint) (choice : Choice) : AcdStand :=
    .scanning { picker, companyid, ite := some dn, point, choice }
  have advances (choice : Choice) : AcdAlone lib ambient threads (at_ .advance choice) (moved choice) :=
    .scan (by simp [Scan.step, present, moved])
  by_cases ours : companyid = user.commpanyid.value
  · have enters : AcdAlone lib ambient threads (at_ .company choice) (at_ .status choice) :=
      .scan (by simp [Scan.step, present, ours, at_])
    by_cases ready : user.agentstatus.value = AgentStatus.waitingReady.code
    · have finds : AcdAlone lib ambient threads (at_ .status choice)
          (at_ .compare { choice with isFind := true }) :=
        .scan (by simp [Scan.step, present, ready, compares, at_])
      by_cases improves : picker.improves ambient.now choice.maxidelminiute user
      · have remembers : AcdAlone lib ambient threads (at_ .compare { choice with isFind := true })
            (at_ .remember { choice with isFind := true }) :=
              .scan (by simp [Scan.step, present, improves, at_])
        have stores : AcdAlone lib ambient threads (at_ .remember { choice with isFind := true })
            (at_ .advance { isFind := true, maxidelminiute := picker.measure ambient.now user, dn }) :=
          .scan (by simp [Scan.step, present, at_])
        have visited := (((enters.trans finds).trans remembers).trans stores).trans (advances _)
        simpa [Choice.visit, DNuser.readyFor, ours, ready, improves, at_, moved] using visited
      · have passes : AcdAlone lib ambient threads (at_ .compare { choice with isFind := true })
            (at_ .advance { choice with isFind := true }) := .scan (by simp [Scan.step, present, improves, at_])
        have visited := ((enters.trans finds).trans passes).trans (advances _)
        simpa [Choice.visit, DNuser.readyFor, ours, ready, improves, at_, moved] using visited
    · have passes : AcdAlone lib ambient threads (at_ .status choice) (at_ .advance choice) :=
        .scan (by simp [Scan.step, present, ready, at_])
      have visited := (enters.trans passes).trans (advances _)
      simpa [Choice.visit, DNuser.readyFor, ours, ready, at_, moved] using visited
  · have passes : AcdAlone lib ambient threads (at_ .company choice) (at_ .advance choice) :=
      .scan (by simp [Scan.step, present, ours, at_])
    have visited := passes.trans (advances _)
    simpa [Choice.visit, DNuser.readyFor, ours, at_, moved] using visited

theorem comparing_rest {picker : Picker} (compares : picker ≠ .robin) (earlier later : List (String × DNuser))
    (choice : Choice) (entries : threads.manager.dnMap.toList = earlier ++ later) :
    AcdAlone lib ambient threads (.scanning { picker, companyid, ite := later.head?.map Prod.fst, choice })
      (let final := later.foldl
        (Choice.visit companyid (picker.improves ambient.now) (picker.measure ambient.now)) choice
      if final.isFind then .returned final.dn else .waiting picker companyid) := by
  induction later generalizing earlier choice with
  | nil => exact .scan rfl
  | cons entry later inductionHypothesis =>
    have present : threads.manager.dnMap[entry.1]? = some entry.2 :=
      OrderedMap.mem_toList_iff.mp (by simp [entries])
    -- one entry at a time: the iterator of the loop is the head of what is left
    have visited := comparing_visit lib ambient threads companyid choice compares present
    rw [OrderedMap.next?_eq entries] at visited
    exact visited.trans (inductionHypothesis (earlier ++ [entry]) _ (by simp [entries]))

theorem robin_rest (choice : Choice) (nobody : choice.isFind = false) (earlier later : List (String × DNuser))
    (entries : threads.manager.dnMap.toList = earlier ++ later) :
    AcdAlone lib ambient threads (.scanning
      { picker := .robin, companyid, ite := later.head?.map Prod.fst, choice })
      (match later.find? fun entry => entry.2.readyFor companyid with
      | some entry => .returned entry.1
      | none => .waiting .robin companyid) := by
  induction later generalizing earlier with
  | nil => exact .scan (by simp [Scan.step, nobody])
  | cons entry later inductionHypothesis =>
    have present : threads.manager.dnMap[entry.1]? = some entry.2 :=
      OrderedMap.mem_toList_iff.mp (by simp [entries])
    have rest := inductionHypothesis (earlier ++ [entry]) (by simp [entries])
    let at_ (point : ScanPoint) : AcdStand :=
      .scanning { picker := .robin, companyid, ite := some entry.1, point, choice }
    have advances : AcdAlone lib ambient threads (at_ .advance)
        (.scanning { picker := .robin, companyid, ite := later.head?.map Prod.fst, choice }) :=
      .scan (by simp [Scan.step, present, OrderedMap.next?_eq entries])
    by_cases ours : companyid = entry.2.commpanyid.value
    · have enters : AcdAlone lib ambient threads (at_ .company) (at_ .status) :=
        .scan (by simp [Scan.step, present, ours, at_])
      by_cases ready : entry.2.agentstatus.value = AgentStatus.waitingReady.code
      · have returns : AcdAlone lib ambient threads (at_ .status) (.returned entry.1) :=
          .scan (by simp [Scan.step, present, ready])
        simpa [DNuser.readyFor, ours, ready, at_] using enters.trans returns
      · have passes : AcdAlone lib ambient threads (at_ .status) (at_ .advance) :=
          .scan (by simp [Scan.step, present, ready, at_])
        simpa [DNuser.readyFor, ours, ready, at_] using ((enters.trans passes).trans advances).trans rest
    · have passes : AcdAlone lib ambient threads (at_ .company) (at_ .advance) :=
        .scan (by simp [Scan.step, present, ours, at_])
      simpa [DNuser.readyFor, ours, at_] using (passes.trans advances).trans rest

theorem pick_eq_compareAgents {picker : Picker} (compares : picker ≠ .robin) (companyid : Int)
    (ambient : Ambient) (manager : ManagerDN) :
    manager.pick picker companyid ambient = compareAgents companyid picker.start (picker.improves ambient.now)
      (picker.measure ambient.now) manager.dnMap.toList := by
  cases picker with
  | robin => contradiction
  | idelAgent => rfl
  | leastTalkTime => rfl
  | fewestCalls => rfl

/-- A picker that is not interrupted returns what one pass of it returns, and waits where that pass
finds nobody. -/
theorem scan_alone (picker : Picker) :
    AcdAlone lib ambient threads (.scanning (.start picker companyid threads.manager))
      (match threads.manager.pick picker companyid ambient with
      | some dn => .returned dn
      | none => .waiting picker companyid) := by
  rw [Scan.start, OrderedMap.begin?_eq]
  by_cases compares : picker = .robin
  · subst compares
    have pass := robin_rest lib ambient threads companyid { maxidelminiute := Picker.robin.start } rfl []
      threads.manager.dnMap.toList rfl
    rw [ManagerDN.pick, ManagerDN.getAgentRobin]
    cases found : threads.manager.dnMap.toList.find? fun entry => entry.2.readyFor companyid with
    | none =>
      rw [found] at pass
      exact pass
    | some entry =>
      rw [found] at pass
      exact pass
  · have pass := comparing_rest lib ambient threads companyid compares [] threads.manager.dnMap.toList
      { maxidelminiute := picker.start } rfl
    rw [pick_eq_compareAgents compares, compareAgents]
    dsimp only at pass ⊢
    split at pass
    · rename_i found
      rw [if_pos found]
      exact pass
    · rename_i nobody
      rw [if_neg nobody]
      exact pass

end Alone

/-! ## Counts -/

/-- A task alone goes from one stand to another. -/
def TaskAlone (lib : Libraries) (threads : Threads) (index : Nat) (from? to? : CallThread) : Prop :=
  ∃ actions, (∀ action ∈ actions, ∃ answer channel, action = .task index answer channel) ∧
    Run (Steps (Threads.step lib)) { threads with calls := threads.calls.set index from? } actions
      { threads with calls := threads.calls.set index to? }

section Counting

variable {lib : Libraries} {threads : Threads} {index : Nat}

theorem TaskAlone.trans {first second third : CallThread} (earlier : TaskAlone lib threads index first second)
    (later : TaskAlone lib threads index second third) : TaskAlone lib threads index first third := by
  obtain ⟨actionsEarlier, ownEarlier, runEarlier⟩ := earlier
  obtain ⟨actionsLater, ownLater, runLater⟩ := later
  exact ⟨actionsEarlier ++ actionsLater, List.forall_mem_append.mpr ⟨ownEarlier, ownLater⟩,
    runEarlier.append runLater⟩

theorem TaskAlone.moves (present : index < threads.calls.length) (answer : Answer OutcallInfo)
    (channel : String)
    {first second : CallThread} (moves : first.step answer channel threads.manager = some second) :
    TaskAlone lib threads index first second := by
  refine ⟨[.task index answer channel], by simp, .single ?_⟩
  simp [Steps, Threads.step, present, moves]

variable (lib)

/-- The loop body of `GetWaitingDN` at one agent. -/
theorem count_visit (present : index < threads.calls.length) (thread : CallThread) (companyid : Int) (num : Nat)
    {dn : String} {user : DNuser} (agent : threads.manager.dnMap[dn]? = some user) :
    TaskAlone lib threads index { thread with count := some { companyid, ite := some dn, num } }
      { thread with
        count := some
          { companyid
            ite := OrderedMap.next? threads.manager.dnMap dn
            num := if user.readyFor companyid then num + 1 else num } } := by
  let at_ (point : ScanPoint) (num : Nat) : CallThread :=
    { thread with count := some { companyid, ite := some dn, point, num } }
  let moved (num : Nat) : CallThread :=
    { thread with count := some { companyid, ite := OrderedMap.next? threads.manager.dnMap dn, num } }
  have advances (num : Nat) : TaskAlone lib threads index (at_ .advance num) (moved num) :=
    .moves present { rows := [] } "" (by simp [CallThread.step, agent, Count.step, at_, moved])
  by_cases ours : companyid = user.commpanyid.value
  · have enters : TaskAlone lib threads index (at_ .company num) (at_ .status num) :=
      .moves present { rows := [] } "" (by simp [CallThread.step, agent, Count.step, ours, at_])
    have tests : TaskAlone lib threads index (at_ .status num)
        (at_ .advance (if user.agentstatus.value = AgentStatus.waitingReady.code then num + 1 else num)) :=
      .moves present { rows := [] } "" (by simp [CallThread.step, agent, Count.step, at_])
    simpa [DNuser.readyFor, ours, at_, moved] using (enters.trans tests).trans (advances _)
  · have passes : TaskAlone lib threads index (at_ .company num) (at_ .advance num) :=
      .moves present { rows := [] } "" (by simp [CallThread.step, agent, Count.step, ours, at_])
    simpa [DNuser.readyFor, ours, at_, moved] using passes.trans (advances _)

theorem count_rest (present : index < threads.calls.length) (thread : CallThread) (companyid : Int)
    (earlier later : List (String × DNuser)) (num : Nat)
    (entries : threads.manager.dnMap.toList = earlier ++ later) :
    TaskAlone lib threads index
      { thread with count := some { companyid, ite := later.head?.map Prod.fst, num } }
      (thread.endCount (num + later.countP fun entry => entry.2.readyFor companyid)) := by
  induction later generalizing earlier num with
  | nil => exact .moves present { rows := [] } "" rfl
  | cons entry later inductionHypothesis =>
    have agent : threads.manager.dnMap[entry.1]? = some entry.2 :=
      OrderedMap.mem_toList_iff.mp (by simp [entries])
    have visited := count_visit lib present thread companyid num agent
    rw [OrderedMap.next?_eq entries] at visited
    have rest := inductionHypothesis (earlier ++ [entry]) (if entry.2.readyFor companyid then num + 1 else num)
      (by simp [entries])
    have total : (if entry.2.readyFor companyid then num + 1 else num) +
        later.countP (fun entry => entry.2.readyFor companyid) =
        num + (entry :: later).countP fun entry => entry.2.readyFor companyid := by
      rw [List.countP_cons]
      split <;> omega
    exact total ▸ visited.trans rest

/-- A task whose count is not interrupted goes on with what `getWaitingDN` says: as `begin` and
`countAgain` do in one step. -/
theorem count_alone (present : index < threads.calls.length) (task : CallTask) :
    TaskAlone lib threads index (.beginCount threads.manager task)
      ((CallThread.beginCount threads.manager task).endCount (threads.manager.getWaitingDN task.company)) := by
  have counted := count_rest lib present (.beginCount threads.manager task) task.company []
    threads.manager.dnMap.toList 0 rfl
  rw [Nat.zero_add] at counted
  rw [← OrderedMap.begin?_eq] at counted
  exact counted

end Counting

theorem endCount_begin (answer : Answer OutcallInfo) (manager : ManagerDN) {task : CallTask}
    (stands : task.stand = .start) (waitingDN : Nat) :
    ((CallThread.beginCount manager
      { task with outcallInfo := getOutcalllist answer task.outcallInfo, ite := 0 }).endCount waitingDN).task =
      task.begin answer waitingDN := by
  simp [CallThread.endCount, CallThread.beginCount, CallTask.begin, stands]

theorem endCount_recount (manager : ManagerDN) {task : CallTask} (stands : task.stand = .recount)
    (waitingDN : Nat) :
    ((CallThread.beginCount manager task).endCount waitingDN).task = task.countAgain waitingDN := by
  simp [CallThread.endCount, CallThread.beginCount, stands]

end CallCenter.Verified
