import CallCenter.Verified.Tasks
import CallCenter.Verified.AgentChanges

/-!
# The list a task dials

`GetOutcalllist` selects the whole of `outdial_task_tbl`, so a task dials every row of it.  That
is its own list exactly when no row belongs to another task or company.
-/

namespace CallCenter.Verified

open Std (ExtTreeMap)
open CallCenter.Foundation CallCenter.Model

/-- The rows that have the task's number and company. -/
def ownRows (rows : List OutcallInfo) (taskid companyid : String) : List OutcallInfo :=
  rows.filter fun row => row.taskId = taskid ∧ row.companyId = atoi companyid

/-- The numbers a task has originated, in order. -/
def CallTask.numbers (task : CallTask) : List String := task.originated.map fun call => call.row.phone

/-- The runs over a table and a set of commands: every query of the table delivers all its rows, and
the tasks created are the given ones, each once. -/
def RunsOver (rows : List OutcallInfo) (commands : List (String × String)) (before : System) : Action → Prop
  | .taskBegin _ answer => answer.rows = rows
  | .createTask taskid companyid =>
    (taskid, companyid) ∈ commands ∧ ∀ task ∈ before.tasks, task.taskId ≠ taskid
  | _ => True

instance (rows : List OutcallInfo) (commands : List (String × String)) (before : System) :
    DecidablePred (RunsOver rows commands before)
  | .taskBegin _ answer => inferInstanceAs (Decidable (answer.rows = rows))
  | .createTask taskid companyid =>
    inferInstanceAs (Decidable ((taskid, companyid) ∈ commands ∧ ∀ task ∈ before.tasks, task.taskId ≠ taskid))
  | .signin .. | .signout .. | .setDNstatus .. | .resetDNinfo .. | .reloaddb .. | .loadDNSet .. | .event ..
  | .incoming .. | .release .. | .acdGet | .acdScan .. | .acdWake .. | .acdDispatch .. | .setCallrate ..
  | .taskPass .. | .taskWake .. | .taskRecount .. => .isTrue trivial

/-- Every task dials the rows of its own in order, all of them before it finishes, and no number is
dialled by two tasks. -/
def DialsOwnLists (rows : List OutcallInfo) (system : System) : Prop :=
  (∀ task ∈ system.tasks,
    CallTask.numbers task <+: (ownRows rows task.taskId task.companyId).map OutcallInfo.phone ∧
    (task.stand = .finish →
      CallTask.numbers task = (ownRows rows task.taskId task.companyId).map OutcallInfo.phone)) ∧
  ∀ first ∈ system.tasks, ∀ second ∈ system.tasks, first.taskId ≠ second.taskId →
    ∀ call ∈ first.originated, ∀ other ∈ second.originated, call.row.phone ≠ other.row.phone

instance (rows : List OutcallInfo) (system : System) : Decidable (DialsOwnLists rows system) :=
  inferInstanceAs (Decidable (_ ∧ _))

/-! ## What a task has dialled -/

/-- A task that was given these rows has dialled the ones before its iterator. -/
structure DialsRows (rows : List OutcallInfo) (task : CallTask) : Prop where
  unstarted : task.stand = .start → task.outcallInfo = [] ∧ task.originated = []
  given : task.stand ≠ .start → task.outcallInfo = rows
  dialled : task.originated.map Originated.row = task.outcallInfo.take task.ite
  atEnd : task.stand = .finish → task.outcallInfo.length ≤ task.ite

namespace DialsRows

variable {rows : List OutcallInfo} {task : CallTask}

theorem begin (sound : DialsRows rows task) {answer : Answer OutcallInfo} (answered : answer.rows = rows)
    (stands : task.stand = .start) (waitingDN : Nat) : DialsRows rows (task.begin answer waitingDN) where
  unstarted started := nomatch started
  given _ := by simp [CallTask.begin, getOutcalllist, (sound.unstarted stands).1, answered]
  dialled := by simp [CallTask.begin, (sound.unstarted stands).2]
  atEnd ended := nomatch ended

theorem pass (sound : DialsRows rows task) (stands : task.stand = .loop) (prefixNumber channel : String) :
    DialsRows rows (task.pass prefixNumber channel) := by
  have given := sound.given (by simp [stands])
  unfold CallTask.pass
  split
  · rename_i ended
    exact ⟨nofun, fun _ => given, sound.dialled, fun _ => List.getElem?_eq_none_iff.mp ended⟩
  · rename_i row next
    split
    · exact ⟨nofun, fun _ => given, sound.dialled, nofun⟩
    · refine ⟨fun started => by simp [stands] at started, fun _ => given, ?_,
        fun ended => by simp [stands] at ended⟩
      simp [sound.dialled, List.take_add_one, next]

/-- A move that changes neither the list, nor the iterator, nor the calls, and starts or ends nothing. -/
theorem moveOn (sound : DialsRows rows task) {moved : CallTask} (list : moved.outcallInfo = task.outcallInfo)
    (ite : moved.ite = task.ite) (originated : moved.originated = task.originated)
    (started : task.stand ≠ .start) (stillStarted : moved.stand ≠ .start) (unfinished : moved.stand ≠ .finish) :
    DialsRows rows moved where
  unstarted start := absurd start stillStarted
  given _ := list.trans (sound.given started)
  dialled := by rw [originated, list, ite, sound.dialled]
  atEnd ended := absurd ended unfinished

theorem rows_prefix (sound : DialsRows rows task) : task.originated.map Originated.row <+: rows := by
  by_cases started : task.stand = .start
  · simp [(sound.unstarted started).2]
  · rw [sound.dialled, sound.given started]
    exact List.take_prefix _ _

theorem numbers_prefix (sound : DialsRows rows task) :
    CallTask.numbers task <+: rows.map OutcallInfo.phone := by
  have dialled := sound.rows_prefix.map OutcallInfo.phone
  rwa [List.map_map] at dialled

theorem numbers_eq (sound : DialsRows rows task) (ended : task.stand = .finish) :
    CallTask.numbers task = rows.map OutcallInfo.phone := by
  have whole : task.originated.map Originated.row = rows := by
    rw [sound.dialled, List.take_of_length_le (sound.atEnd ended), sound.given (by simp [ended])]
  simp [CallTask.numbers, ← whole]

theorem row_mem (sound : DialsRows rows task) {call : Originated} (called : call ∈ task.originated) :
    call.row ∈ rows :=
  sound.rows_prefix.subset (List.mem_map_of_mem called)

end DialsRows

theorem dialsRows_moved {before : System} {index : Nat} {earlier task : CallTask} {action : Action}
    {rows : List OutcallInfo} {commands : List (String × String)}
    (admitted : RunsOver rows commands before action) (moved : Moved before index earlier action task)
    (sound : DialsRows rows earlier) : DialsRows rows task := by
  cases moved with
  | kept => exact sound
  | rated own => exact ⟨sound.unstarted, sound.given, sound.dialled, sound.atEnd⟩
  | begun stands => exact sound.begin admitted stands _
  | passed stands => exact sound.pass stands _ _
  | woken stands => exact sound.moveOn rfl rfl rfl (by simp [stands]) nofun nofun
  | recounted stands => exact sound.moveOn rfl rfl rfl (by simp [stands]) nofun nofun

/-- The tasks of a run come from its commands, and have dialled rows of the table. -/
def TasksOver (rows : List OutcallInfo) (commands : List (String × String)) (system : System) : Prop :=
  ∀ (index : Nat) (task : CallTask), system.tasks[index]? = some task →
    DialsRows rows task ∧ (task.taskId, task.companyId) ∈ commands

theorem tasksOver_step {lib : Libraries} {before after : System} {action : Action} {rows : List OutcallInfo}
    {commands : List (String × String)} (admitted : RunsOver rows commands before action)
    (taken : before.step lib action = some after) (tasks : TasksOver rows commands before) :
    TasksOver rows commands after := by
  intro index task found
  rcases task_moved taken found with ⟨earlier, at?, moved⟩ | ⟨taskid, companyid, rfl, _, rfl⟩
  · obtain ⟨sound, commanded⟩ := tasks index earlier at?
    obtain ⟨sameTask, sameCompany⟩ := moved.identity
    exact ⟨dialsRows_moved admitted moved sound, by rw [sameTask, sameCompany]; exact commanded⟩
  · exact ⟨⟨fun _ => ⟨rfl, rfl⟩, fun started => absurd rfl started, rfl, nofun⟩, admitted.1⟩

/-! ## A run that dials everything -/

theorem initivrflow_nil (lib : Libraries) : initivrflow lib [] {} = .ok {} := by
  have nodes : (groupRows 0 [] ∅).toList = [] := by simp [groupRows]
  simp only [initivrflow, List.length_nil, nodes, List.foldlM_nil]
  rfl

theorem configured_step (lib : Libraries) (routes : List Route) (before : System) :
    ∃ after, before.step lib (configured routes []) = some after ∧ after.manager.gRoute = routes ∧
      after.manager.dnMap = before.manager.dnMap ∧ after.tasks = before.tasks := by
  refine ⟨?after, ?taken, ?rest⟩
  case taken =>
    simp only [configured, System.step, ManagerDN.reloaddb, initivrflow_nil]
    rfl
  case rest => exact ⟨rfl, rfl, rfl⟩

/-- The company has a ready agent under this extension. -/
def Staffed (dn : String) (companyid : Int) (manager : ManagerDN) : Prop :=
  ∃ user, manager.dnMap[dn]? = some user ∧ user.readyFor companyid = true

theorem Staffed.getWaitingDN_pos {dn : String} {companyid : Int} {manager : ManagerDN}
    (staffed : Staffed dn companyid manager) : 0 < manager.getWaitingDN companyid := by
  obtain ⟨user, present, ready⟩ := staffed
  exact List.countP_pos_iff.mpr ⟨(dn, user), OrderedMap.mem_toList_iff.mpr present, ready⟩

/-- An agent that signs in ready for the first time is a ready agent of its route's company. -/
theorem staffed_of_readyAgent {lib : Libraries} {before after : System} {route : Route}
    (routes : before.manager.gRoute = [route]) (new : before.manager.dnMap[route.agent]? = none)
    (taken : before.step lib (readyAgent route.agent) = some after) :
    after.tasks = before.tasks ∧ Staffed route.agent (atoi route.groupId) after.manager := by
  have valid : before.manager.checkvaildDN route.agent = true := by simp [ManagerDN.checkvaildDN, routes]
  have company : before.manager.getcompanyidbyDN route.agent = route.groupId := by
    simp [ManagerDN.getcompanyidbyDN, routes]
  refine ⟨?tasks, ?user, ?present, ?ready⟩
  case tasks =>
    cases took_of_step taken
    rfl
  case present =>
    rw [step_agents taken rfl, AgentChange.getElem?_apply]
    simp only [readyAgent, agentChange, valid, new, if_true]
    rfl
  case ready => simp [DNuser.readyFor, DNuser.inlineSetcompanyid, DNuser.construct, company]

/-- The end of a call to a signed-in agent leaves it ready, and posts the call-out semaphore. -/
theorem staffed_of_destroy {lib : Libraries} {before after : System} {event : Event} {ambient : Ambient}
    {companyid : Int} (kind : event.eventId = .channelDestroy)
    (staffed : Staffed event.destinationNumber companyid before.manager)
    (taken : before.step lib (.event event ambient) = some after) :
    after.tasks = before.tasks ∧ 0 < after.manager.calloutsema ∧
      Staffed event.destinationNumber companyid after.manager := by
  obtain ⟨user, present, ready⟩ := staffed
  refine ⟨?_, ?_, user.callEnded (headerOrEmpty event "variable_duration"), ?_, ?_⟩
  · cases took_of_step taken
    rfl
  · have known : event.destinationNumber ∈ (before.manager.closeCallInfo event ambient).dnMap := by
      rw [closeCallInfo_dnMap, ExtTreeMap.mem_iff_isSome_getElem?, present]
      rfl
    cases took_of_step taken with
    | event processed =>
      simp only [ManagerDN.processEvent, kind, Except.ok.injEq] at processed
      subst processed
      simp only [ManagerDN.onDestroy, ManagerDN.releaseAgent, known, if_true]
      exact Nat.succ_pos _
  · rw [step_agents taken rfl, AgentChange.getElem?_apply]
    simp [agentChange, eventChange, kind, present]
  · simp only [DNuser.readyFor, Bool.and_eq_true, beq_iff_eq] at ready ⊢
    exact ⟨ready.1, rfl⟩

theorem taskAt_only {system : System} {task : CallTask} {stand : TaskStand} (only : system.tasks = [task])
    (stands : task.stand = stand) : system.taskAt 0 stand = some task := by
  simp [System.taskAt, only, Option.filter, stands]

/-- A task with enough budget for the rest of its list dials it and finishes. -/
theorem dials_rest {lib : Libraries} {rows : List OutcallInfo} {commands : List (String × String)} (left : Nat)
    {before : System} {task : CallTask} (only : before.tasks = [task]) (stands : task.stand = .loop)
    (rest : task.outcallInfo.length - task.ite = left) (budget : (left : Int) ≤ task.num) :
    ∃ actions after finished, Run (Guarded (RunsOver rows commands)
      (Steps (System.step lib))) before actions after ∧
      after.tasks = [finished] ∧ finished.stand = .finish ∧ finished.taskId = task.taskId ∧
      finished.companyId = task.companyId := by
  induction left generalizing before task with
  | zero =>
    have ended : task.outcallInfo[task.ite]? = none := by
      rw [List.getElem?_eq_none_iff]
      omega
    refine ⟨[.taskPass 0 ""], before.updateTask 0 (CallTask.pass before.manager.prefixNumber ""),
      { task with stand := .finish }, .single ⟨trivial, ?_⟩, ?_, rfl, rfl, rfl⟩
    · simp [Steps, System.step, taskAt_only only stands]
    · simp [System.updateTask, only, CallTask.pass, ended]
  | succ left inductionHypothesis =>
    obtain ⟨row, next⟩ : ∃ row, task.outcallInfo[task.ite]? = some row :=
      Option.isSome_iff_exists.mp (by simp; omega)
    have positive : ¬ task.num ≤ 0 := by omega
    have dialled : task.pass before.manager.prefixNumber "" = { task with
        num := task.num - 1
        ite := task.ite + 1
        originated := task.originated ++
          [{ row, callCmd := callCmd before.manager.prefixNumber row, channel := "" }] } := by
      simp [CallTask.pass, next, positive]
    have onward : (before.updateTask 0 (CallTask.pass before.manager.prefixNumber "")).tasks =
        [task.pass before.manager.prefixNumber ""] := by simp [System.updateTask, only]
    obtain ⟨actions, after, finished, run, tasks, ended, sameTask, sameCompany⟩ := inductionHypothesis onward
      (by simp [dialled, stands]) (by simp only [dialled]; omega) (by simp only [dialled]; omega)
    refine ⟨.taskPass 0 "" :: actions, after, finished, .next ⟨trivial, ?_⟩ run, tasks, ended, ?_, ?_⟩
    · simp [Steps, System.step, taskAt_only only stands]
    · rw [sameTask, dialled]
    · rw [sameCompany, dialled]

/-- A task that comes up before anyone is signed in waits, whatever its rate. -/
theorem blocked_run {lib : Libraries} {rows : List OutcallInfo} {commands : List (String × String)}
    {taskid companyid : String} (commanded : (taskid, companyid) ∈ commands) (some? : rows ≠ [])
    {before : System} (noTasks : before.tasks = []) (nobody : before.manager.getWaitingDN (atoi companyid) = 0)
    (rate : Int) :
    Run (Guarded (RunsOver rows commands) (Steps (System.step lib))) before
      [.createTask taskid companyid, .setCallrate taskid rate, .taskBegin 0 { rows }, .taskPass 0 ""]
      { before with
        tasks := [{ taskId := taskid, companyId := companyid, rate, outcallInfo := rows,
                    stand := .waiting }] } := by
  obtain ⟨row, rest, rfl⟩ := List.exists_cons_of_ne_nil some?
  have created : before.step lib (.createTask taskid companyid) =
      some { before with tasks := [{ taskId := taskid, companyId := companyid }] } := by
    simp [System.step, createTask, noTasks]
  have rated : System.step lib { before with tasks := [{ taskId := taskid, companyId := companyid }] }
      (.setCallrate taskid rate) =
      some { before with tasks := [{ taskId := taskid, companyId := companyid, rate }] } := by
    simp [System.step, setCallrate]
  have begun : System.step lib { before with tasks := [{ taskId := taskid, companyId := companyid, rate }] }
      (.taskBegin 0 { rows := row :: rest }) = some { before with
        tasks := [{ taskId := taskid, companyId := companyid, rate, outcallInfo := row :: rest,
                    stand := .loop }] } := by
    simp [System.step, System.taskAt, System.updateTask, CallTask.begin, getOutcalllist, CallTask.company,
      nobody]
  have passed : System.step lib { before with
        tasks := [{ taskId := taskid, companyId := companyid, rate, outcallInfo := row :: rest,
                    stand := .loop }] } (.taskPass 0 "") = some { before with
        tasks := [{ taskId := taskid, companyId := companyid, rate, outcallInfo := row :: rest,
                    stand := .waiting }] } := by
    simp [System.step, System.taskAt, System.updateTask, CallTask.pass]
  refine .next ⟨⟨commanded, ?_⟩, created⟩
    (.next ⟨trivial, rated⟩ (.next ⟨rfl, begun⟩ (.single ⟨trivial, passed⟩)))
  simp [noTasks]

/-- A posted semaphore and a ready agent wake the task with a budget of at least its rate. -/
theorem woken_run {lib : Libraries} {rows : List OutcallInfo} {commands : List (String × String)}
    {before : System} {task : CallTask} (only : before.tasks = [task]) (stands : task.stand = .waiting)
    (posted : 0 < before.manager.calloutsema) (someone : 0 < before.manager.getWaitingDN task.company)
    (rate : 0 ≤ task.rate) :
    ∃ after budget, task.rate ≤ budget ∧
      Run (Guarded (RunsOver rows commands) (Steps (System.step lib))) before
        [.taskWake 0, .taskRecount 0] after ∧
      after.tasks = [{ task with num := budget, stand := .loop }] := by
  let woken : System := { before.updateTask 0 fun task => { task with stand := .recount } with
    manager := { before.manager with calloutsema := before.manager.calloutsema - 1 } }
  have wakes : before.step lib (.taskWake 0) = some woken := by
    simp [System.step, taskAt_only only stands, posted, woken]
  have wokenTasks : woken.tasks = [{ task with stand := .recount }] := by
    simp [woken, System.updateTask, only]
  let counted : System := woken.updateTask 0 (CallTask.countAgain (woken.manager.getWaitingDN task.company))
  have counts : woken.step lib (.taskRecount 0) = some counted := by
    simp [System.step, taskAt_only wokenTasks rfl, counted, CallTask.company]
  refine ⟨counted, before.manager.getWaitingDN task.company * task.rate, ?_,
    .next ⟨trivial, wakes⟩ (.single ⟨trivial, counts⟩), ?_⟩
  · exact le_mul_of_one_le_left rate (by exact_mod_cast someone)
  · simp only [counted, System.updateTask, wokenTasks]
    rfl

/-- One route, one task, and a rate as high as the list is long: the task waits once, an agent signs
in and finishes a call, and then the task dials everything. -/
theorem finishing_run (lib : Libraries) {rows : List OutcallInfo} {commands : List (String × String)}
    {taskid companyid : String} (commanded : (taskid, companyid) ∈ commands) (some? : rows ≠ []) :
    ∃ actions reached finished,
      Run (Guarded (RunsOver rows commands) (Steps (System.step lib)))
        (System.initial none "") actions reached ∧
      reached.tasks = [finished] ∧ finished.stand = .finish ∧ finished.taskId = taskid ∧
      finished.companyId = companyid := by
  let step := Guarded (RunsOver rows commands) (Steps (System.step lib))
  let route : Route :=
    { group := "4001", agent := "1001", groupId := companyid, gataname := "ingw", prefixNumber := "" }
  obtain ⟨loaded, loads, routes, agents, tasks⟩ := configured_step lib [route] (System.initial none "")
  have nobody : loaded.manager.getWaitingDN (atoi companyid) = 0 := by
    simp [ManagerDN.getWaitingDN, agents, System.initial]
  let blocked : System := { loaded with
    tasks := [{ taskId := taskid, companyId := companyid, rate := rows.length, outcallInfo := rows,
                stand := .waiting }] }
  have blocks : Run step loaded _ blocked :=
    blocked_run commanded some? tasks nobody rows.length
  -- an agent signs in, and a call to it ends
  obtain ⟨signedIn, signsIn⟩ : ∃ signedIn, blocked.step lib (readyAgent route.agent) = some signedIn := ⟨_, rfl⟩
  have routed : blocked.manager.gRoute = [route] := routes
  have absent : blocked.manager.dnMap[route.agent]? = none := by simp [blocked, agents, System.initial]
  obtain ⟨keepsTask, staffed⟩ := staffed_of_readyAgent routed absent signsIn
  let ends : Event := { eventId := .channelDestroy, headers := [("Caller-Destination-Number", "1001")] }
  obtain ⟨posted, posts⟩ : ∃ posted, signedIn.step lib (.event ends noon) = some posted := ⟨_, rfl⟩
  have called : Staffed ends.destinationNumber (atoi companyid) signedIn.manager := staffed
  obtain ⟨stillKept, permit, stillStaffed⟩ := staffed_of_destroy rfl called posts
  have only : posted.tasks = blocked.tasks := stillKept.trans keepsTask
  -- the task counts that agent and dials its whole list
  obtain ⟨counted, budget, enough, wakes, recounted⟩ :=
    woken_run only rfl permit stillStaffed.getWaitingDN_pos (Int.natCast_nonneg _)
  obtain ⟨dials, reached, finished, dialling, lone, ended, sameTask, sameCompany⟩ :=
    dials_rest rows.length recounted rfl rfl enough
  have opens : step (System.initial none "") (configured [route] []) loaded := ⟨trivial, loads⟩
  have arrives : step blocked (readyAgent "1001") signedIn := ⟨trivial, signsIn⟩
  have hangsUp : step signedIn (.event ends noon) posted := ⟨trivial, posts⟩
  exact ⟨_, reached, finished, .next opens
    (blocks.append (.next arrives (.next hangsUp (wakes.append dialling)))),
    lone, ended, sameTask, sameCompany⟩

/-! ## Every run -/

theorem ownRows_eq_self {rows : List OutcallInfo} {taskid companyid : String}
    (own : ∀ row ∈ rows, row.taskId = taskid ∧ row.companyId = atoi companyid) :
    ownRows rows taskid companyid = rows :=
  List.filter_eq_self.mpr fun row listed => decide_eq_true (own row listed)

/-- A table that is every command's own list is what every task dials. -/
theorem dialsOwnLists_of_own {lib : Libraries} {rows : List OutcallInfo} {commands : List (String × String)}
    (own : ∀ command ∈ commands, ∀ row ∈ rows, row.taskId = command.1 ∧ row.companyId = atoi command.2)
    {presisted : DnuserTable} {prefixNumber : String} {actions : List Action} {reached : System}
    (run : Run (Guarded (RunsOver rows commands) (Steps (System.step lib)))
      (System.initial presisted prefixNumber) actions reached) : DialsOwnLists rows reached := by
  have tasks : TasksOver rows commands reached :=
    run.invariant (TasksOver rows commands) (fun _ _ _ taken => tasksOver_step taken.1 taken.2)
      (by simp [TasksOver, System.initial])
  have sound : ∀ task ∈ reached.tasks, DialsRows rows task ∧ (task.taskId, task.companyId) ∈ commands := by
    intro task listed
    obtain ⟨index, found⟩ := List.getElem?_of_mem listed
    exact tasks index task found
  refine ⟨fun task listed => ?_,
    fun first firstListed second secondListed differ call called other otherCalled => ?_⟩
  · obtain ⟨dials, commanded⟩ := sound task listed
    rw [ownRows_eq_self (own _ commanded)]
    exact ⟨dials.numbers_prefix, dials.numbers_eq⟩
  · -- a row of the table belongs to both tasks, so they are one
    obtain ⟨firstDials, firstCommanded⟩ := sound first firstListed
    obtain ⟨_, secondCommanded⟩ := sound second secondListed
    have listed := firstDials.row_mem called
    exact absurd ((own _ firstCommanded _ listed).1.symm.trans (own _ secondCommanded _ listed).1) differ

/-- A finished task that dialled its own list shows that the table is its own list. -/
theorem own_of_dialsOwnLists {rows : List OutcallInfo} {system : System} {task : CallTask}
    (dials : DialsOwnLists rows system) (listed : task ∈ system.tasks) (ended : task.stand = .finish)
    (sound : DialsRows rows task) :
    ∀ row ∈ rows, row.taskId = task.taskId ∧ row.companyId = atoi task.companyId := by
  have numbers : rows.map OutcallInfo.phone = (ownRows rows task.taskId task.companyId).map OutcallInfo.phone :=
    (sound.numbers_eq ended).symm.trans ((dials.1 task listed).2 ended)
  have whole : (ownRows rows task.taskId task.companyId).length = rows.length := by
    simpa using (congrArg List.length numbers).symm
  have own := List.length_filter_eq_length_iff.mp whole
  exact fun row listed => of_decide_eq_true (own row listed)

/-- Every task of every run over a table dials its own list exactly when all rows of the table
belong to every command. -/
theorem tasks_dial_own_lists (lib : Libraries) (rows : List OutcallInfo) (commands : List (String × String)) :
    (∀ presisted prefixNumber actions reached,
      Run (Guarded (RunsOver rows commands) (Steps (System.step lib)))
        (System.initial presisted prefixNumber) actions reached → DialsOwnLists rows reached) ↔
      ∀ command ∈ commands, ∀ row ∈ rows, row.taskId = command.1 ∧ row.companyId = atoi command.2 := by
  refine ⟨fun always command commanded row listed => ?_, fun own _ _ _ _ run => dialsOwnLists_of_own own run⟩
  obtain ⟨actions, reached, finished, run, lone, ended, sameTask, sameCompany⟩ :=
    finishing_run lib commanded (List.ne_nil_of_mem listed)
  have tasks : TasksOver rows commands reached :=
    run.invariant (TasksOver rows commands) (fun _ _ _ taken => tasksOver_step taken.1 taken.2)
      (by simp [TasksOver, System.initial])
  have own := own_of_dialsOwnLists (always _ _ _ _ run) (by simp [lone]) ended
      (tasks 0 finished (by simp [lone])).1
  rw [← sameTask, ← sameCompany]
  exact own row listed

/-- A table with one row for each of two tasks. -/
def twoLists : List OutcallInfo :=
  [{ phone := "13900000001", name := "Li", taskId := "7", companyId := 1 },
   { phone := "13900000002", name := "Wang", taskId := "8", companyId := 1 }]

/-- Both tasks run to their end, one after the other. -/
def bothTasksRun : List Action :=
  [configured companyRoutes [], readyAgent "1001", readyAgent "1002", .createTask "7" "1", .createTask "8" "1",
    .taskBegin 0 { rows := twoLists }, .taskPass 0 "call-1", .taskPass 0 "call-2", .taskPass 0 "",
    .taskBegin 1 { rows := twoLists }, .taskPass 1 "call-3", .taskPass 1 "call-4", .taskPass 1 ""]

theorem both_tasks_dial_whole_table :
    ¬ ∀ presisted prefixNumber actions reached,
      Run (Guarded (RunsOver twoLists [("7", "1"), ("8", "1")]) (Steps (System.step lockedDatabase)))
        (System.initial presisted prefixNumber) actions reached → DialsOwnLists twoLists reached := by
  intro always
  have dials := always (some []) "" bothTasksRun _ (guardedRun_finish (by decide +kernel))
  revert dials
  decide +kernel

end CallCenter.Verified
