/-!
# Runs of labelled transition systems

A system is a relation `step before action after`.  `Run step start actions finish`
is a finite run that records its actions.  The rules a safety proof needs are
`Run.invariant` (one step keeps it, so every run keeps it) and its relational form
`Run.related`; `Guarded` restricts a system to the steps whose action meets a
condition on the state before it, and `execute` decides concrete runs of a
partial step function.
-/

namespace CallCenter.Foundation

universe u v

variable {State : Type u} {Action : Type v}

/-- A finite run, with the actions it takes in order. -/
inductive Run (step : State → Action → State → Prop) : State → List Action → State → Prop where
  | done (state : State) : Run step state [] state
  | next {before middle after : State} {action : Action} {actions : List Action}
      (first : step before action middle) (rest : Run step middle actions after) :
      Run step before (action :: actions) after

/-- The steps of a system whose action meets a condition on the state before it. -/
def Guarded (condition : State → Action → Prop) (step : State → Action → State → Prop) :
    State → Action → State → Prop :=
  fun before action after => condition before action ∧ step before action after

/-- A partial step function as a step relation. -/
def Steps (step : State → Action → Option State) : State → Action → State → Prop :=
  fun before action after => step before action = some after

namespace Run

variable {step : State → Action → State → Prop}

/-- A property that every step keeps holds wherever a run from it leads. -/
theorem invariant (holds : State → Prop)
    (kept : ∀ before action after, step before action after → holds before → holds after)
    {start finish : State} {actions : List Action}
    (run : Run step start actions finish) (base : holds start) : holds finish := by
  induction run with
  | done => exact base
  | next first _ inductionHypothesis => exact inductionHypothesis (kept _ _ _ first base)

/-- A reflexive, transitive relation that every step respects relates the two ends of a run. -/
theorem related (relation : State → State → Prop) (refl : ∀ state, relation state state)
    (trans : ∀ {first second third}, relation first second → relation second third → relation first third)
    (respected : ∀ before action after, step before action after → relation before after)
    {start finish : State} {actions : List Action}
    (run : Run step start actions finish) : relation start finish := by
  induction run with
  | done state => exact refl state
  | next first _ inductionHypothesis => exact trans (respected _ _ _ first) inductionHypothesis

theorem append {start middle finish : State} {earlier later : List Action}
    (first : Run step start earlier middle) (second : Run step middle later finish) :
    Run step start (earlier ++ later) finish := by
  induction first with
  | done => exact second
  | next taken _ inductionHypothesis => exact .next taken (inductionHypothesis second)

theorem single {before after : State} {action : Action} (taken : step before action after) :
    Run step before [action] after :=
  .next taken (.done after)

/-- A run of actions one after the other passes through a state in between. -/
theorem split {start finish : State} {earlier later : List Action}
    (run : Run step start (earlier ++ later) finish) :
    ∃ middle, Run step start earlier middle ∧ Run step middle later finish := by
  induction earlier generalizing start with
  | nil => exact ⟨start, .done start, run⟩
  | cons action earlier inductionHypothesis =>
    cases run with
    | next first rest =>
      obtain ⟨middle, leads, follows⟩ := inductionHypothesis rest
      exact ⟨middle, .next first leads, follows⟩

/-- A run of a system is a run of every system that allows at least its steps. -/
theorem mono {wider : State → Action → State → Prop}
    (allowed : ∀ before action after, step before action after → wider before action after)
    {start finish : State} {actions : List Action} (run : Run step start actions finish) :
    Run wider start actions finish := by
  induction run with
  | done state => exact .done state
  | next first _ inductionHypothesis => exact .next (allowed _ _ _ first) inductionHypothesis

/-- Either a run takes no marked action, or it divides at the last one. -/
theorem last (marked : Action → Bool) {start finish : State} {actions : List Action}
    (run : Run step start actions finish) :
    Run (Guarded (fun _ action => marked action = false) step) start actions finish ∨
      ∃ earlier action later before after, actions = earlier ++ action :: later ∧ marked action = true ∧
        Run step start earlier before ∧ step before action after ∧
        Run (Guarded (fun _ action => marked action = false) step) after later finish := by
  induction run with
  | done state => exact .inl (.done state)
  | @next before middle after action actions first rest inductionHypothesis =>
    rcases inductionHypothesis with unmarkedRun |
        ⟨earlier, last, later, atLast, afterLast, rfl, mark, leads, taken, run⟩
    · cases mark : marked action with
      | true => exact .inr ⟨[], action, actions, before, middle, rfl, mark, .done before, first, unmarkedRun⟩
      | false => exact .inl (.next ⟨mark, first⟩ unmarkedRun)
    · exact .inr ⟨action :: earlier, last, later, atLast, afterLast, rfl, mark, .next first leads, taken, run⟩

theorem unguarded {condition : State → Action → Prop} {start finish : State} {actions : List Action}
    (run : Run (Guarded condition step) start actions finish) : Run step start actions finish :=
  run.mono fun _ _ _ taken => taken.2

/-- The actions of a run guarded by a condition on actions meet it. -/
theorem actions_meet {condition : Action → Prop} {start finish : State} {actions : List Action}
    (run : Run (Guarded (fun _ => condition) step) start actions finish) :
    ∀ action ∈ actions, condition action := by
  induction run with
  | done => exact fun _ member => absurd member List.not_mem_nil
  | next first _ inductionHypothesis => exact List.forall_mem_cons.mpr ⟨first.1, inductionHypothesis⟩

end Run

/-! ## Executing concrete runs -/

/-- Take the actions one after another; `none` when one of them is not available. -/
def execute (step : State → Action → Option State) : State → List Action → Option State
  | state, [] => some state
  | state, action :: actions => (step state action).bind fun next => execute step next actions

/-- `execute`, with every action also checked against a condition. -/
def executeGuarded (condition : State → Action → Prop)
    [∀ state action, Decidable (condition state action)] (step : State → Action → Option State) :
    State → List Action → Option State :=
  execute fun state action => if condition state action then step state action else none

/-- Where concrete actions lead. -/
def finish (step : State → Action → Option State) (start : State) (actions : List Action) : State :=
  (execute step start actions).getD start

theorem run_of_execute {step : State → Action → Option State} {start finish : State}
    {actions : List Action} (executed : execute step start actions = some finish) :
    Run (Steps step) start actions finish := by
  induction actions generalizing start with
  | nil =>
    simp only [execute, Option.some.injEq] at executed
    subst executed
    exact .done start
  | cons action actions inductionHypothesis =>
    simp only [execute, Option.bind_eq_some_iff] at executed
    obtain ⟨middle, taken, rest⟩ := executed
    exact .next taken (inductionHypothesis rest)

theorem execute_of_run {step : State → Action → Option State} {start finish : State}
    {actions : List Action} (run : Run (Steps step) start actions finish) :
    execute step start actions = some finish := by
  induction run with
  | done => rfl
  | next first _ inductionHypothesis =>
    rw [execute, show step _ _ = some _ from first, Option.bind_some]
    exact inductionHypothesis

/-- The actions of a run lead to its end only. -/
theorem finish_of_run {step : State → Action → Option State} {start reached : State}
    {actions : List Action} (run : Run (Steps step) start actions reached) :
    finish step start actions = reached := by
  rw [finish, execute_of_run run, Option.getD_some]

theorem execute_of_executeGuarded {condition : State → Action → Prop}
    [∀ state action, Decidable (condition state action)] {step : State → Action → Option State}
    {start finish : State} {actions : List Action}
    (executed : executeGuarded condition step start actions = some finish) :
    execute step start actions = some finish := by
  induction actions generalizing start with
  | nil => exact executed
  | cons action actions inductionHypothesis =>
    simp only [executeGuarded, execute, Option.bind_eq_some_iff] at executed ⊢
    obtain ⟨middle, taken, rest⟩ := executed
    split at taken
    · exact ⟨middle, taken, inductionHypothesis rest⟩
    · contradiction

theorem run_of_executeGuarded {condition : State → Action → Prop}
    [∀ state action, Decidable (condition state action)] {step : State → Action → Option State}
    {start finish : State} {actions : List Action}
    (executed : executeGuarded condition step start actions = some finish) :
    Run (Guarded condition (Steps step)) start actions finish := by
  refine (run_of_execute executed).mono ?_
  intro before action after taken
  simp only [Steps] at taken
  split at taken
  · rename_i met
    exact ⟨met, taken⟩
  · contradiction

/-- A run whose actions each meet a condition where they are taken is a run of the guarded system. -/
theorem guardedRun_of_met {condition : State → Action → Prop} {step : State → Action → Option State}
    {start reached : State} {actions : List Action} (run : Run (Steps step) start actions reached)
    (met : ∀ earlier action later middle, actions = earlier ++ action :: later →
      Run (Steps step) start earlier middle → condition middle action) :
    Run (Guarded condition (Steps step)) start actions reached := by
  induction run with
  | done state => exact .done state
  | @next before middle after action actions first rest inductionHypothesis =>
    refine .next ⟨met [] action actions before rfl (.done before), first⟩ (inductionHypothesis ?_)
    intro earlier taken later reached split leads
    exact met (action :: earlier) taken later reached (by rw [split]; rfl) (.next first leads)

/-- Available actions are a run to where they lead. -/
theorem run_finish {step : State → Action → Option State} {start : State} {actions : List Action}
    (available : (execute step start actions).isSome = true) :
    Run (Steps step) start actions (finish step start actions) := by
  obtain ⟨reached, executed⟩ := Option.isSome_iff_exists.mp available
  rw [finish, executed]
  exact run_of_execute executed

theorem guardedRun_finish {condition : State → Action → Prop}
    [∀ state action, Decidable (condition state action)] {step : State → Action → Option State}
    {start : State} {actions : List Action}
    (available : (executeGuarded condition step start actions).isSome = true) :
    Run (Guarded condition (Steps step)) start actions (finish step start actions) := by
  obtain ⟨reached, executed⟩ := Option.isSome_iff_exists.mp available
  rw [finish, execute_of_executeGuarded executed]
  exact run_of_executeGuarded executed

theorem step_finish {step : State → Action → Option State} {state : State} {action : Action}
    (available : (step state action).isSome = true) :
    step state action = some (finish step state [action]) := by
  obtain ⟨reached, taken⟩ := Option.isSome_iff_exists.mp available
  simp [finish, execute, taken]

end CallCenter.Foundation
