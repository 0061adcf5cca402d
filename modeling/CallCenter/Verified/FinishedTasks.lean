import CallCenter.Verified.CommandServers

/-!
# Which tasks `Deletetask` removes

An erased task leaves the iterator one task too far: the task that moved up is passed unseen, and
where none moved up the iterator stands past the end of the list.
-/

namespace CallCenter.Verified

open CallCenter.Model

/-- `Deletetask` stays inside the list, deletes the finished tasks, each once, and keeps the others in
their order. -/
def RemovesFinished (manager : CalloutManager) : Prop :=
  ∃ after gone, manager.deletetask = .ok after ∧
    after.tasklist = manager.tasklist.filter (fun task => task.stand ≠ .finish) ∧
    after.deleted = manager.deleted ++ gone ∧
    gone.Perm (manager.tasklist.filter fun task => task.stand = .finish)

/-- No two finished tasks are neighbours, and none is the last. -/
structure FinishedApart (tasklist : List CallTask) : Prop where
  neighbours : tasklist.IsChain fun first second => first.stand ≠ .finish ∨ second.stand ≠ .finish
  last : ∀ task ∈ tasklist.getLast?, task.stand ≠ .finish

instance (tasklist : List CallTask) : Decidable (FinishedApart tasklist) :=
  decidable_of_iff ((tasklist.IsChain fun first second => first.stand ≠ .finish ∨ second.stand ≠ .finish) ∧
      ∀ task ∈ tasklist.getLast?, task.stand ≠ .finish)
    ⟨fun ⟨neighbours, last⟩ => ⟨neighbours, last⟩, fun apart => ⟨apart.neighbours, apart.last⟩⟩

theorem finishedApart_nil : FinishedApart [] where
  neighbours := .nil
  last := nofun

theorem FinishedApart.tail {task : CallTask} {ahead : List CallTask} (apart : FinishedApart (task :: ahead)) :
    FinishedApart ahead where
  neighbours := apart.neighbours.tail
  last := by
    intro last isLast
    refine apart.last last ?_
    rw [Option.mem_def] at isLast ⊢
    rw [List.getLast?_cons, isLast]
    rfl

/-- A running task in front separates whatever follows. -/
theorem FinishedApart.cons {task : CallTask} {ahead : List CallTask} (running : task.stand ≠ .finish)
    (apart : FinishedApart ahead) : FinishedApart (task :: ahead) where
  neighbours := List.isChain_cons.mpr ⟨fun _ _ => .inl running, apart.neighbours⟩
  last := by
    intro last isLast
    cases ahead with
    | nil =>
      obtain rfl : task = last := by simpa using isLast
      exact running
    | cons next ahead => exact apart.last last (by simpa [List.getLast?_cons] using isLast)

/-- So does a finished task with a running one behind it. -/
theorem FinishedApart.cons_cons {task unseen : CallTask} {ahead : List CallTask}
    (running : unseen.stand ≠ .finish) (apart : FinishedApart ahead) :
    FinishedApart (task :: unseen :: ahead) where
  neighbours := List.isChain_cons_cons.mpr ⟨.inr running, (apart.cons running).neighbours⟩
  last := by
    intro last isLast
    exact (apart.cons running).last last (by simpa [List.getLast?_cons] using isLast)

/-- Where the finished tasks stand apart the loop sees all of them. -/
theorem deletetaskFrom_of_apart {passed deleted tasks : List CallTask} (apart : FinishedApart tasks) :
    CalloutManager.deletetaskFrom passed deleted tasks =
      .ok (passed ++ tasks.filter (fun task => task.stand ≠ .finish),
        deleted ++ tasks.filter fun task => task.stand = .finish) := by
  induction passed, deleted, tasks using CalloutManager.deletetaskFrom.induct with
  | case1 passed deleted => simp [CalloutManager.deletetaskFrom]
  | case2 deleted task finished => exact absurd finished (apart.last task rfl)
  | case3 passed deleted task finished others => exact absurd finished (apart.last task rfl)
  | case4 passed deleted task finished unseen ahead inductionHypothesis =>
    have running : unseen.stand ≠ .finish :=
      (List.isChain_cons_cons.mp apart.neighbours).1.resolve_left fun running => running finished
    simp only [CalloutManager.deletetaskFrom, finished, if_true]
    rw [inductionHypothesis apart.tail.tail]
    simp [finished, running]
  | case5 passed deleted task ahead running inductionHypothesis =>
    rw [deletetaskFrom_running running, inductionHypothesis apart.tail]
    simp [running]

/-- What the iterator has passed stays in the list. -/
theorem prefix_of_deletetaskFrom {passed deleted tasks kept gone : List CallTask}
    (done : CalloutManager.deletetaskFrom passed deleted tasks = .ok (kept, gone)) : passed <+: kept := by
  induction passed, deleted, tasks using CalloutManager.deletetaskFrom.induct with
  | case1 passed deleted =>
    cases done
    exact List.prefix_rfl
  | case2 deleted task finished => exact List.nil_prefix
  | case3 passed deleted task finished others => simp [CalloutManager.deletetaskFrom, finished, others] at done
  | case4 passed deleted task finished unseen ahead inductionHypothesis =>
    simp only [CalloutManager.deletetaskFrom, finished, if_true] at done
    exact (List.prefix_append passed [unseen]).trans (inductionHypothesis done)
  | case5 passed deleted task ahead running inductionHypothesis =>
    rw [deletetaskFrom_running running] at done
    exact (List.prefix_append passed [task]).trans (inductionHypothesis done)

/-- Where the running tasks are what is kept, the finished ones stood apart. -/
theorem apart_of_deletetaskFrom {passed deleted tasks gone : List CallTask}
    (done : CalloutManager.deletetaskFrom passed deleted tasks =
      .ok (passed ++ tasks.filter (fun task => task.stand ≠ .finish), gone)) :
    FinishedApart tasks ∨ (passed = [] ∧ tasks.length = 1) := by
  induction passed, deleted, tasks using CalloutManager.deletetaskFrom.induct with
  | case1 passed deleted => exact .inl finishedApart_nil
  | case2 deleted task finished => exact .inr ⟨rfl, rfl⟩
  | case3 passed deleted task finished others => simp [CalloutManager.deletetaskFrom, finished, others] at done
  | case4 passed deleted task finished unseen ahead inductionHypothesis =>
    simp only [CalloutManager.deletetaskFrom, finished, if_true, ne_eq, not_true_eq_false, decide_false,
      Bool.false_eq_true, not_false_eq_true, List.filter_cons_of_neg] at done
    -- the task passed unseen is kept, so it is a running one
    have running : unseen.stand ≠ .finish := by
      intro alsoFinished
      have kept := prefix_of_deletetaskFrom done
      rw [List.filter_cons_of_neg (by simp [alsoFinished]), List.prefix_append_right_inj] at kept
      have isKept := kept.subset List.mem_cons_self
      simp [alsoFinished] at isKept
    rw [List.filter_cons_of_pos (by simp [running]),
      List.append_cons passed unseen (List.filter _ ahead)] at done
    rcases inductionHypothesis done with apart | ⟨empty, _⟩
    · exact .inl (apart.cons_cons running)
    · simp at empty
  | case5 passed deleted task ahead running inductionHypothesis =>
    rw [deletetaskFrom_running running, List.filter_cons_of_pos (by simp [running]),
      List.append_cons passed task (List.filter _ ahead)] at done
    rcases inductionHypothesis done with apart | ⟨empty, _⟩
    · exact .inl (apart.cons running)
    · simp at empty

/-- `Deletetask` does what it is for exactly when the finished tasks stand apart, or the list is one task. -/
theorem removesFinished_iff (manager : CalloutManager) :
    RemovesFinished manager ↔ FinishedApart manager.tasklist ∨ manager.tasklist.length = 1 := by
  constructor
  · rintro ⟨after, gone, done, kept, _⟩
    simp only [CalloutManager.deletetask] at done
    cases cleaned : CalloutManager.deletetaskFrom [] manager.deleted manager.tasklist with
    | error fault =>
      rw [cleaned] at done
      cases done
    | ok result =>
      obtain ⟨tasklist, deleted⟩ := result
      rw [cleaned] at done
      cases done
      obtain rfl : tasklist = _ := kept
      exact (apart_of_deletetaskFrom cleaned).imp_right And.right
  · rintro (apart | single)
    · refine ⟨{ manager with
          tasklist := manager.tasklist.filter fun task => task.stand ≠ .finish
          deleted := manager.deleted ++ manager.tasklist.filter fun task => task.stand = .finish },
        _, ?_, rfl, rfl, .refl _⟩
      simp only [CalloutManager.deletetask, deletetaskFrom_of_apart apart, List.nil_append]
      rfl
    · obtain ⟨task, only⟩ := List.length_eq_one_iff.mp single
      by_cases finished : task.stand = .finish
      · refine ⟨{ manager with tasklist := [], deleted := manager.deleted ++ [task] }, [task], ?_, ?_, rfl, ?_⟩
        · simp only [CalloutManager.deletetask, only, CalloutManager.deletetaskFrom, finished, if_true]
          rfl
        · simp [only, finished]
        · simp [only, finished]
      · refine ⟨{ manager with tasklist := [task] }, [], ?_, ?_, (List.append_nil _).symm, ?_⟩
        · simp only [CalloutManager.deletetask, only, CalloutManager.deletetaskFrom, finished, if_false]
          rfl
        · simp [only, finished]
        · simp [only, finished]

/-- A task in this state. -/
def taskAt (taskId : String) (stand : TaskStand) : CallTask := { taskId, companyId := "1", stand }

/-- A finished task at the end of the list: the iterator is dereferenced behind it. -/
theorem finished_last_past_end :
    ¬ RemovesFinished { tasklist := [taskAt "7" .waiting, taskAt "8" .finish] } := by
  rintro ⟨after, gone, done, _⟩
  cases done

end CallCenter.Verified
