import CallCenter.Verified.Steps

/-!
# How a step changes a task

Tasks are never removed from the list, so a task keeps its index.  `Moved` lists what one action
can do to the task at an index; `task_moved` says that every step does one of these or creates
the task.
-/

namespace CallCenter.Verified

open CallCenter.Foundation CallCenter.Model

inductive Moved (before : System) (index : Nat) (earlier : CallTask) : Action → CallTask → Prop where
  | kept (action : Action) : Moved before index earlier action earlier
  | rated {taskid : String} {rate : Int} (own : earlier.taskId = taskid) :
    Moved before index earlier (.setCallrate taskid rate) { earlier with rate }
  | begun {answer : Answer OutcallInfo} (stands : earlier.stand = .start) :
    Moved before index earlier (.taskBegin index answer)
      (earlier.begin answer (before.manager.getWaitingDN earlier.company))
  | passed {channel : String} (stands : earlier.stand = .loop) :
    Moved before index earlier (.taskPass index channel) (earlier.pass before.manager.prefixNumber channel)
  | woken (stands : earlier.stand = .waiting) :
    Moved before index earlier (.taskWake index) { earlier with stand := .recount }
  | recounted (stands : earlier.stand = .recount) :
    Moved before index earlier (.taskRecount index)
      (earlier.countAgain (before.manager.getWaitingDN earlier.company))

/-- The task at an index after another one, or the same, was changed. -/
theorem found_updateTask {before : System} {changed index : Nat} {change : CallTask → CallTask}
    {target task : CallTask} (at? : before.tasks[changed]? = some target)
    (found : (before.updateTask changed change).tasks[index]? = some task) :
    (changed = index ∧ before.tasks[index]? = some target ∧ task = change target) ∨
      before.tasks[index]? = some task := by
  simp only [System.updateTask, List.getElem?_modify] at found
  by_cases same : changed = index
  · subst same
    simp only [at?, if_true, Option.map_eq_map, Option.map_some, Option.some.injEq] at found
    exact .inl ⟨rfl, at?, found.symm⟩
  · simp only [same, if_false, id_map'] at found
    exact .inr found

theorem task_moved {lib : Libraries} {before after : System} {action : Action} {index : Nat} {task : CallTask}
    (taken : before.step lib action = some after) (found : after.tasks[index]? = some task) :
    (∃ earlier, before.tasks[index]? = some earlier ∧ Moved before index earlier action task) ∨
      ∃ taskid companyid, action = .createTask taskid companyid ∧ index = before.tasks.length ∧
        task = { taskId := taskid, companyId := companyid } := by
  cases took_of_step taken with
  | createTask taskid companyid =>
    simp only [createTask, List.getElem?_append] at found
    split at found
    · exact .inl ⟨task, found, .kept _⟩
    · have last : index = before.tasks.length := by
        have bound := (List.getElem?_eq_some_iff.mp found).1
        simp only [List.length_singleton] at bound
        omega
      simp only [last, Nat.sub_self, List.getElem?_cons_zero, Option.some.injEq] at found
      exact .inr ⟨taskid, companyid, rfl, last, found.symm⟩
  | setCallrate taskid rate =>
    simp only [setCallrate, List.getElem?_map, Option.map_eq_some_iff] at found
    obtain ⟨earlier, at?, rfl⟩ := found
    refine .inl ⟨earlier, at?, ?_⟩
    split
    · rename_i own
      exact .rated own
    · exact .kept _
  | taskBegin at? stands =>
    rcases found_updateTask at? found with ⟨rfl, earlier, rfl⟩ | same
    · exact .inl ⟨_, earlier, .begun stands⟩
    · exact .inl ⟨task, same, .kept _⟩
  | taskPass at? stands =>
    rcases found_updateTask at? found with ⟨rfl, earlier, rfl⟩ | same
    · exact .inl ⟨_, earlier, .passed stands⟩
    · exact .inl ⟨task, same, .kept _⟩
  | taskWake at? stands posted =>
    rcases found_updateTask at? found with ⟨rfl, earlier, rfl⟩ | same
    · exact .inl ⟨_, earlier, .woken stands⟩
    · exact .inl ⟨task, same, .kept _⟩
  | taskRecount at? stands =>
    rcases found_updateTask at? found with ⟨rfl, earlier, rfl⟩ | same
    · exact .inl ⟨_, earlier, .recounted stands⟩
    · exact .inl ⟨task, same, .kept _⟩
  | _ => exact .inl ⟨task, found, .kept _⟩

theorem task_stays {lib : Libraries} {before after : System} {action : Action} {index : Nat}
    {earlier : CallTask}
    (taken : before.step lib action = some after) (at? : before.tasks[index]? = some earlier) :
    ∃ task, after.tasks[index]? = some task ∧ Moved before index earlier action task := by
  have bound := (List.getElem?_eq_some_iff.mp at?).1
  have longer : before.tasks.length ≤ after.tasks.length := by
    cases took_of_step taken <;>
      simp [createTask, setCallrate, System.updateTask, System.firstScan, System.dispatch]
  obtain ⟨task, found⟩ : ∃ task, after.tasks[index]? = some task :=
    ⟨_, List.getElem?_eq_getElem (Nat.lt_of_lt_of_le bound longer)⟩
  rcases task_moved taken found with ⟨same, sameAt, moved⟩ | ⟨_, _, _, new, _⟩
  · obtain rfl := Option.some.inj (at?.symm.trans sameAt)
    exact ⟨task, found, moved⟩
  · omega

theorem Moved.identity {before : System} {index : Nat} {earlier task : CallTask} {action : Action}
    (moved : Moved before index earlier action task) :
    task.taskId = earlier.taskId ∧ task.companyId = earlier.companyId := by
  cases moved with
  | passed stands =>
    unfold CallTask.pass
    split
    · exact ⟨rfl, rfl⟩
    · split <;> exact ⟨rfl, rfl⟩
  | _ => exact ⟨rfl, rfl⟩

end CallCenter.Verified
