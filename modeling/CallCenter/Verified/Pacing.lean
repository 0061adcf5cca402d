import CallCenter.Verified.AgentChanges
import CallCenter.Verified.Tasks

/-!
# The pace of a task

A task counts the ready agents when it starts and after every wait, and dials that many numbers
before it waits again.  The count does not look at the calls that are still up, so the signed-in
agents bound the calls since the last count, and calls from before it come on top.
-/

namespace CallCenter.Verified

open Std (ExtTreeMap)
open CallCenter.Foundation CallCenter.Model

/-- The calls of a task whose channel is not destroyed yet. -/
def inFlight (task : CallTask) (system : System) : List Originated :=
  task.originated.filter fun call => call.channel ∉ system.history.destroyed

/-- The number of agents of a company that are signed in. -/
def signedInAgents (companyid : Int) (manager : ManagerDN) : Nat :=
  manager.dnMap.toList.countP fun entry => entry.2.commpanyid.value == companyid

/-- An agent of the company signs out. -/
def signsOutOf (companyid : Int) (before : System) : Action → Bool
  | .signout agentId _ =>
    before.manager.dnMap[before.manager.getDNbyagentid agentId]?.any fun user =>
      user.commpanyid.value == companyid
  | _ => false

/-- The rate of the task is set to something else than 1. -/
def changesRate (task : CallTask) : Action → Bool
  | .setCallrate taskid rate => task.taskId == taskid && rate != 1
  | _ => false

/-- While the task exists it has rate 1, no agent of its company signs out, and none is restored
from disk. -/
def Paced (index : Nat) (before : System) (action : Action) : Prop :=
  ∀ task ∈ before.tasks[index]?, changesRate task action = false ∧
    signsOutOf task.company before action = false ∧ restores before action = false

instance (index : Nat) (before : System) (action : Action) : Decidable (Paced index before action) :=
  inferInstanceAs (Decidable (∀ task ∈ before.tasks[index]?, _))

/-- The task at an index counts the ready agents. -/
def counts (index : Nat) : Action → Bool
  | .taskBegin counting _ => counting == index
  | .taskRecount counting => counting == index
  | _ => false

/-! ## Signed-in agents -/

/-- A change after which this agent is still there, in its company. -/
def AgentChange.KeepsCompany (map : ExtTreeMap String DNuser) (dn : String) : AgentChange → Prop
  | .unchanged => True
  | .signedIn key _ => map[key]? = none
  | .touched _ _ change => ∀ user, (change user).commpanyid = user.commpanyid
  | .adjusted _ change => ∀ user, (change user).commpanyid = user.commpanyid
  | .signedOut key => key ≠ dn

theorem AgentChange.KeepsCompany.apply {map : ExtTreeMap String DNuser} {dn : String} {change : AgentChange}
    (keeps : change.KeepsCompany map dn) {user : DNuser} (present : map[dn]? = some user) :
    ∃ changed, (change.apply map)[dn]? = some changed ∧ changed.commpanyid = user.commpanyid := by
  rw [AgentChange.getElem?_apply]
  cases change with
  | unchanged => exact ⟨user, present, rfl⟩
  | signedIn key added =>
    have other : key ≠ dn := by
      rintro rfl
      exact absurd (keeps.symm.trans present) nofun
    exact ⟨user, by simpa [other] using present, rfl⟩
  | touched key fresh change =>
    by_cases same : key = dn
    · exact ⟨change user, by simp [same, present], keeps user⟩
    · exact ⟨user, by simpa [same] using present, rfl⟩
  | adjusted key change =>
    by_cases same : key = dn
    · exact ⟨change user, by simp [same, present], keeps user⟩
    · exact ⟨user, by simpa [same] using present, rfl⟩
  | signedOut key => exact ⟨user, by simpa [show key ≠ dn from keeps] using present, rfl⟩

/-- No operation moves an agent to another company, and only `Signout` removes one. -/
theorem agentChange_keepsCompany {before : System} {action : Action} {dn : String} {user : DNuser}
    (stays : signsOutOf user.commpanyid.value before action = false)
    (present : before.manager.dnMap[dn]? = some user) :
    (agentChange before action).KeepsCompany before.manager.dnMap dn := by
  have changes := changes_agentChange before action
  generalize agentChange before action = change at changes
  cases changes with
  | unchanged => trivial
  | signedIn request ambient absent => exact absent
  | signedOut agentId ambient =>
    rintro rfl
    simp [signsOutOf, present] at stays
  | signedInAgain | statusSet | reset | ended | answered | dispatched => exact fun _ => rfl

theorem signedInAgents_mono {lib : Libraries} {before after : System} {action : Action} {companyid : Int}
    (taken : before.step lib action = some after) (fresh : restores before action = false)
    (stays : signsOutOf companyid before action = false) :
    signedInAgents companyid before.manager ≤ signedInAgents companyid after.manager := by
  refine OrderedMap.countP_toList_mono fun dn user present ours => ?_
  simp only [beq_iff_eq] at ours
  subst ours
  rw [step_agents taken fresh]
  obtain ⟨changed, found, company⟩ := (agentChange_keepsCompany stays present).apply present
  exact ⟨changed, found, by simp [company]⟩

theorem getWaitingDN_le_signedInAgents (companyid : Int) (manager : ManagerDN) :
    manager.getWaitingDN companyid ≤ signedInAgents companyid manager := by
  refine List.countP_mono_left fun entry _ ready => ?_
  simp only [DNuser.readyFor, Bool.and_eq_true, beq_iff_eq] at ready
  simp [ready.1]

/-! ## The budget -/

theorem undialled_step {lib : Libraries} {before after : System} {action : Action} {index : Nat}
    (taken : before.step lib action = some after) (uncounted : counts index action = false)
    (undialled : ∀ task ∈ before.tasks[index]?, task.stand = .start ∧ task.originated = []) :
    ∀ task ∈ after.tasks[index]?, task.stand = .start ∧ task.originated = [] := by
  intro task found
  rcases task_moved taken found with ⟨earlier, at?, moved⟩ | ⟨_, _, rfl, _, rfl⟩
  · obtain ⟨stands, nothing⟩ := undialled earlier at?
    cases moved with
    | kept => exact ⟨stands, nothing⟩
    | rated => exact ⟨stands, nothing⟩
    | begun => simp [counts] at uncounted
    | passed loops => simp [stands] at loops
    | woken waits => simp [stands] at waits
    | recounted => simp [counts] at uncounted
  · exact ⟨rfl, rfl⟩

/-- What a task did since it last counted `ready` ready agents. -/
structure SinceCount (ready : Nat) (companyId : String) (earlier : List Originated) (destroyed : List String)
    (system : System) (task : CallTask) : Prop where
  company : task.companyId = companyId
  dialled : ∃ since, task.originated = earlier ++ since ∧ since.length + max task.num 0 ≤ ready
  started : task.stand ≠ .start
  agents : ready ≤ signedInAgents (atoi companyId) system.manager
  ended : destroyed ⊆ system.history.destroyed

theorem SinceCount.pass {ready : Nat} {companyId : String} {earlier : List Originated} {destroyed : List String}
    {system : System} {task : CallTask} (since : SinceCount ready companyId earlier destroyed system task)
    (prefixNumber channel : String) :
    SinceCount ready companyId earlier destroyed system (task.pass prefixNumber channel) := by
  unfold CallTask.pass
  split
  · exact { since with started := nofun }
  · split
    · exact { since with started := nofun }
    · obtain ⟨calls, dialled, budget⟩ := since.dialled
      refine { since with dialled := ⟨calls ++ [_], by rw [dialled, List.append_assoc], ?_⟩ }
      -- the call just made is one more dialled and one less in `num`
      simp only [List.length_append, List.length_singleton]
      omega

theorem SinceCount.later {ready : Nat} {companyId : String} {earlier : List Originated}
    {destroyed : List String}
    {system after : System} {task : CallTask} (since : SinceCount ready companyId earlier destroyed system task)
    (agents : signedInAgents (atoi companyId) system.manager ≤ signedInAgents (atoi companyId) after.manager)
    (ended : system.history.destroyed ⊆ after.history.destroyed) :
    SinceCount ready companyId earlier destroyed after task :=
  { since with
    agents := since.agents.trans agents
    ended := List.Subset.trans since.ended ended }

theorem destroyed_step {lib : Libraries} {before after : System} {action : Action}
    (taken : before.step lib action = some after) : before.history.destroyed ⊆ after.history.destroyed := by
  rw [history_destroyed_step taken]
  exact List.subset_append_left _ _

theorem sinceCount_step {lib : Libraries} {before after : System} {action : Action} {index : Nat} {ready : Nat}
    {companyId : String} {earlier : List Originated} {destroyed : List String}
    (admitted : Paced index before action) (taken : before.step lib action = some after)
    (uncounted : counts index action = false) (since : ∃ task, before.tasks[index]? = some task ∧
      SinceCount ready companyId earlier destroyed before task) :
    ∃ task, after.tasks[index]? = some task ∧ SinceCount ready companyId earlier destroyed after task := by
  obtain ⟨task, at?, since⟩ := since
  obtain ⟨_, stays, fresh⟩ := admitted task at?
  have sameCompany : task.company = atoi companyId := congrArg atoi since.company
  obtain ⟨later, found, moved⟩ := task_stays taken at?
  refine ⟨later, found, SinceCount.later ?moved ?agents (destroyed_step taken)⟩
  case agents => exact signedInAgents_mono taken fresh (sameCompany ▸ stays)
  case moved =>
    -- only a pass spends budget; a new count is excluded, and a started task does not begin again
    cases moved with
    | kept => exact since
    | rated => exact { since with }
    | begun stands => exact absurd stands since.started
    | passed stands => exact since.pass _ _
    | woken stands => exact { since with started := nofun }
    | recounted => simp [counts] at uncounted

/-- Right after a count the task has its whole budget and has made no call since. -/
theorem sinceCount_of_count {lib : Libraries} {before counted : System} {counting : Action} {index : Nat}
    (taken : before.step lib counting = some counted) (count : counts index counting = true)
    (rate : ∀ task ∈ before.tasks[index]?, task.rate = 1) :
    ∃ task, counted.tasks[index]? = some task ∧
      SinceCount (counted.manager.getWaitingDN task.company) task.companyId task.originated
        counted.history.destroyed counted task := by
  have ready : ∀ companyId, counted.manager.getWaitingDN (atoi companyId) ≤
      signedInAgents (atoi companyId) counted.manager := fun _ => getWaitingDN_le_signedInAgents _ _
  cases took_of_step taken with
  | @taskBegin _ answer task at? stands =>
    obtain rfl : _ = index := by simpa [counts] using count
    refine ⟨task.begin answer (before.manager.getWaitingDN task.company), by simp [System.updateTask, at?], rfl,
      ⟨[], by simp, ?_⟩, ?_, ready _, List.Subset.refl _⟩
    · simp [CallTask.begin, CallTask.company, System.updateTask]
    · intro same
      cases same
  | @taskRecount _ task at? stands =>
    obtain rfl : _ = index := by simpa [counts] using count
    refine ⟨task.countAgain (before.manager.getWaitingDN task.company), by simp [System.updateTask, at?], rfl,
      ⟨[], by simp, ?_⟩, ?_, ready _, List.Subset.refl _⟩
    · simp [CallTask.countAgain, CallTask.company, System.updateTask, rate task at?]
    · intro same
      cases same
  | _ => simp [counts] at count

theorem rate_step {lib : Libraries} {before after : System} {action : Action} {index : Nat}
    (admitted : Paced index before action) (taken : before.step lib action = some after)
    (rate : ∀ task ∈ before.tasks[index]?, task.rate = 1) : ∀ task ∈ after.tasks[index]?, task.rate = 1 := by
  intro task found
  rcases task_moved taken found with ⟨earlier, at?, moved⟩ | ⟨_, _, rfl, _, rfl⟩
  · have before := rate earlier at?
    cases moved with
    | rated own => simpa [changesRate, own] using (admitted earlier at?).1
    | passed =>
      unfold CallTask.pass
      split
      · exact before
      · split <;> exact before
    | _ => exact before
  · rfl

/-- Calls since the count come on top of the calls that were up at the count. -/
theorem SinceCount.inFlight_length_le {ready : Nat} {companyId : String} {counted system : System}
    {atCount task : CallTask}
    (since : SinceCount ready companyId atCount.originated counted.history.destroyed system task) :
    (inFlight task system).length ≤ (inFlight atCount counted).length + ready := by
  obtain ⟨calls, dialled, budget⟩ := since.dialled
  -- a channel that is up now was up at the count: ends of calls are never forgotten
  have stillUp : (atCount.originated.filter fun call => call.channel ∉ system.history.destroyed).length ≤
      (inFlight atCount counted).length := by
    refine (List.monotone_filter_right _ fun call up => ?_).length_le
    simp only [decide_not, Bool.not_eq_true', decide_eq_false_iff_not] at up ⊢
    exact fun destroyed => up (since.ended destroyed)
  -- of the calls made since, at most all are up
  have new := List.length_filter_le (fun call : Originated => call.channel ∉ system.history.destroyed) calls
  simp only [inFlight, dialled, List.filter_append, List.length_append] at stillUp new ⊢
  omega

/-- A run divided at the last count of a task, which leads from `before` to `counted`. -/
def LastCount (lib : Libraries) (index : Nat) (start : System) (actions : List Action)
    (before counted reached : System) : Prop :=
  ∃ earlier counting later, actions = earlier ++ counting :: later ∧ counts index counting = true ∧
    (∀ action ∈ later, counts index action = false) ∧ Run (Steps (System.step lib)) start earlier before ∧
    before.step lib counting = some counted ∧ Run (Steps (System.step lib)) counted later reached

/-- A task of rate 1 whose agents stay signed in has either made no call, or the calls it made
since its last count are at most the agents that were ready then, who are at most the agents signed
in now.  The calls up now are at most those and the calls that were up at the count. -/
theorem paced_since_last_count {lib : Libraries} {presisted : DnuserTable} {prefixNumber : String}
    {actions : List Action} {reached : System} {index : Nat} {task : CallTask}
    (run : Run (Guarded (Paced index) (Steps (System.step lib))) (System.initial presisted prefixNumber) actions
      reached)
    (found : reached.tasks[index]? = some task) :
    task.originated = [] ∨
      ∃ before counted atCount since,
        LastCount lib index (System.initial presisted prefixNumber) actions before counted reached ∧
        counted.tasks[index]? = some atCount ∧ task.originated = atCount.originated ++ since ∧
        since.length ≤ counted.manager.getWaitingDN task.company ∧
        counted.manager.getWaitingDN task.company ≤ signedInAgents task.company reached.manager ∧
        (inFlight task reached).length ≤
          (inFlight atCount counted).length + counted.manager.getWaitingDN task.company := by
  -- the run never counts for the task, or it divides at the last count
  rcases run.last (counts index) with uncounted |
      ⟨earlier, counting, later, before, counted, divides, count, leads,
    taken, since⟩
  · have undialled := uncounted.invariant
      (fun system => ∀ task ∈ system.tasks[index]?, task.stand = .start ∧ task.originated = [])
      (fun _ _ _ step => undialled_step step.2.2 step.1) (by simp [System.initial])
    exact .inl (undialled task found).2
  · have rate := leads.invariant (fun system => ∀ task ∈ system.tasks[index]?, task.rate = 1)
      (fun _ _ _ step => rate_step step.1 step.2) (by simp [System.initial])
    obtain ⟨atCount, at?, base⟩ := sinceCount_of_count taken.2 count rate
    obtain ⟨reachedTask, foundAt, sinceCount⟩ := since.invariant
      (fun system => ∃ task, system.tasks[index]? = some task ∧
        SinceCount (counted.manager.getWaitingDN atCount.company) atCount.companyId atCount.originated
          counted.history.destroyed system task)
      (fun _ _ _ step => sinceCount_step step.2.1 step.2.2 step.1) ⟨atCount, at?, base⟩
    -- the task the invariant speaks of is the given one
    obtain rfl := Option.some.inj (found.symm.trans foundAt)
    obtain ⟨calls, dialled, budget⟩ := sinceCount.dialled
    have company : task.company = atCount.company := congrArg atoi sinceCount.company
    refine .inr ⟨before, counted, atCount, calls,
      ⟨earlier, counting, later, divides, count, since.actions_meet, leads.unguarded, taken.2,
        since.unguarded.unguarded⟩, at?, dialled, ?_⟩
    rw [company]
    exact ⟨by omega, sinceCount.agents, sinceCount.inFlight_length_le⟩

/-- An agent is signed in, and a task of its company makes its first call. -/
def firstCall : List Action :=
  [configured companyRoutes [], readyAgent "1001", .createTask "7" "1",
    .taskBegin 0 { rows := [{ phone := "13900000001" }, { phone := "13900000002" }] }, .taskPass 0 "call-1"]

theorem paced_since_last_count_first :
    let start := System.initial (some []) ""
    let reached := finish (System.step lockedDatabase) start firstCall
    let task := (reached.tasks.getD 0 { taskId := "", companyId := "" })
    task.originated = [] ∨
      ∃ before counted atCount since,
        LastCount lockedDatabase 0 start firstCall before counted reached ∧
        counted.tasks[0]? = some atCount ∧ task.originated = atCount.originated ++ since ∧
        since.length ≤ counted.manager.getWaitingDN task.company ∧
        counted.manager.getWaitingDN task.company ≤ signedInAgents task.company reached.manager ∧
        (inFlight task reached).length ≤
          (inFlight atCount counted).length + counted.manager.getWaitingDN task.company :=
  paced_since_last_count (guardedRun_finish (by decide +kernel)) (by decide +kernel)

/-- The first call still rings when another call to the same agent ends, and the task counts again. -/
def secondCall : List Action :=
  firstCall ++ [.taskPass 0 "", reported .channelDestroy "other" "1002" "1001", .taskWake 0, .taskRecount 0,
    .taskPass 0 "call-2"]

theorem calls_exceed_agents :
    ¬ ∀ (presisted : DnuserTable) (prefixNumber : String) (actions : List Action) (reached : System)
      (index : Nat) (task : CallTask),
      Run (Guarded (Paced index) (Steps (System.step lockedDatabase))) (System.initial presisted prefixNumber)
        actions reached → reached.tasks[index]? = some task →
      (inFlight task reached).length ≤ signedInAgents task.company reached.manager := by
  intro bounded
  -- two calls are up, and one agent is signed in
  have exceeds := bounded (some []) "" secondCall _ 0 _ (guardedRun_finish (by decide +kernel))
    (List.getElem?_eq_getElem (by decide +kernel))
  revert exceeds
  decide +kernel

end CallCenter.Verified
