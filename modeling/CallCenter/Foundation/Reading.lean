import CallCenter.Foundation.Runs
import Mathlib.Data.List.Basic

/-!
# Loops that read a list from its front

`while (something is left) { read a part of it; .. }`: a round takes a part of what is left and may
leave the loop.  Where every round takes something and no more than is left, the loop goes forward,
stays inside the list and ends, with one result.
-/

namespace CallCenter.Foundation.Reading

universe u v w

variable {Entry : Type u} {State : Type v} {Failure : Type w}

/-- Where a loop stands: at an offset, before what is left, with its variables. -/
structure Cursor (Entry : Type u) (State : Type v) where
  p : Nat
  rest : List Entry
  state : State

/-- How much a round takes of what is left, and what it does, with `break` as `done`. -/
structure Loop (Entry : Type u) (State : Type v) (Failure : Type w) where
  take : List Entry → Nat
  body : State → Nat → List Entry → Except Failure (ForInStep State)

namespace Loop

variable (loop : Loop Entry State Failure)

/-- A round after which the loop goes on, with what it takes. -/
inductive Round : Cursor Entry State → List Entry → Cursor Entry State → Prop where
  | next {p : Nat} {rest : List Entry} {state after : State} (unread : rest ≠ [])
      (goes : loop.body state p rest = .ok (.yield after)) :
      Round ⟨p, rest, state⟩ (rest.take (loop.take rest))
        ⟨p + loop.take rest, rest.drop (loop.take rest), after⟩

/-- Here the loop ends with this result. -/
inductive Ends : Cursor Entry State → Except Failure State → Prop where
  | exhausted (p : Nat) (state : State) : Ends ⟨p, [], state⟩ (.ok state)
  | leaves {p : Nat} {rest : List Entry} {state after : State} (unread : rest ≠ [])
      (done : loop.body state p rest = .ok (.done after)) : Ends ⟨p, rest, state⟩ (.ok after)
  | fails {p : Nat} {rest : List Entry} {state : State} {failure : Failure} (unread : rest ≠ [])
      (failed : loop.body state p rest = .error failure) : Ends ⟨p, rest, state⟩ (.error failure)

/-- From here the loop ends with this result, after some rounds. -/
def Results (start : Cursor Entry State) (result : Except Failure State) : Prop :=
  ∃ taken cursor, Run loop.Round start taken cursor ∧ loop.Ends cursor result

/-- Every round takes something, and no more than is left. -/
def Advances : Prop := ∀ rest, rest ≠ [] → 0 < loop.take rest ∧ loop.take rest ≤ rest.length

/-- The loop goes forward, stays inside the list and ends. -/
structure Terminates (start : Cursor Entry State) : Prop where
  forward : ∀ taken before part after, Run loop.Round start taken before → loop.Round before part after →
    before.p < after.p
  inside : ∀ taken cursor, Run loop.Round start taken cursor →
    cursor.p ≤ start.p + start.rest.length ∧ cursor.rest = start.rest.drop (cursor.p - start.p)
  rounds : ∀ taken cursor, Run loop.Round start taken cursor → taken.length ≤ start.rest.length
  results : ∃! result, loop.Results start result

variable {loop}

/-! ## One result -/

theorem Round.unique {before first second : Cursor Entry State} {part other : List Entry}
    (round : loop.Round before part first) (also : loop.Round before other second) : first = second := by
  cases round with
  | next _ goes =>
    cases also with
    | next _ goes' =>
      rw [goes] at goes'
      cases goes'
      rfl

theorem Ends.unique {cursor : Cursor Entry State} {first second : Except Failure State}
    (ends : loop.Ends cursor first) (also : loop.Ends cursor second) : first = second := by
  cases ends with
  | exhausted =>
    cases also with
    | exhausted => rfl
    | leaves unread | fails unread => exact absurd rfl unread
  | leaves unread done =>
    cases also with
    | exhausted => exact absurd rfl unread
    | leaves _ done' =>
      rw [done] at done'
      cases done'
      rfl
    | fails _ failed =>
      rw [done] at failed
      cases failed
  | fails unread failed =>
    cases also with
    | exhausted => exact absurd rfl unread
    | leaves _ done =>
      rw [failed] at done
      cases done
    | fails _ failed' =>
      rw [failed] at failed'
      cases failed'
      rfl

/-- Where the loop ends it does not go on. -/
theorem Ends.no_round {cursor after : Cursor Entry State} {part : List Entry} {result : Except Failure State}
    (ends : loop.Ends cursor result) : ¬ loop.Round cursor part after := by
  intro round
  cases round with
  | next unread goes =>
    cases ends with
    | exhausted => exact unread rfl
    | leaves _ done =>
      rw [goes] at done
      cases done
    | fails _ failed =>
      rw [goes] at failed
      cases failed

theorem Results.unique {start : Cursor Entry State} {first second : Except Failure State}
    (results : loop.Results start first) (also : loop.Results start second) : first = second := by
  obtain ⟨taken, cursor, run, ends⟩ := results
  obtain ⟨taken', cursor', run', ends'⟩ := also
  induction run generalizing taken' with
  | done =>
    cases run' with
    | done => exact ends.unique ends'
    | next round => exact absurd round ends.no_round
  | next round _ inductionHypothesis =>
    cases run' with
    | done => exact absurd round ends'.no_round
    | next round' rest' =>
      cases round.unique round'
      exact inductionHypothesis ends _ rest'

/-! ## Progress -/

/-- Further on in the same list. -/
def Behind (first second : Cursor Entry State) : Prop :=
  first.p ≤ second.p ∧ second.p + second.rest.length = first.p + first.rest.length ∧
    second.rest = first.rest.drop (second.p - first.p)

theorem Behind.refl (cursor : Cursor Entry State) : Behind cursor cursor := by
  refine ⟨Nat.le_refl _, rfl, ?_⟩
  rw [Nat.sub_self, List.drop_zero]

theorem Behind.trans {first second third : Cursor Entry State} (near : Behind first second)
    (far : Behind second third) : Behind first third := by
  obtain ⟨after, same, rest⟩ := near
  obtain ⟨after', same', rest'⟩ := far
  refine ⟨by omega, by omega, ?_⟩
  rw [rest', rest, List.drop_drop]
  congr 1
  omega

theorem Round.forward (advances : loop.Advances) {before after : Cursor Entry State} {part : List Entry}
    (round : loop.Round before part after) : before.p < after.p ∧ Behind before after := by
  cases round with
  | @next p rest _ _ unread _ =>
    obtain ⟨some, bounded⟩ := advances rest unread
    refine ⟨Nat.lt_add_of_pos_right some, Nat.le_add_right _ _, ?_, ?_⟩
    · simp only [List.length_drop]
      omega
    · rw [Nat.add_sub_cancel_left]

theorem run_behind (advances : loop.Advances) {start cursor : Cursor Entry State} {taken : List (List Entry)}
    (run : Run loop.Round start taken cursor) : Behind start cursor :=
  run.related Behind Behind.refl (fun near far => near.trans far)
    fun _ _ _ round => (round.forward advances).2

/-- There are no more rounds than entries. -/
theorem rounds_le (advances : loop.Advances) {start cursor : Cursor Entry State} {taken : List (List Entry)}
    (run : Run loop.Round start taken cursor) : taken.length + cursor.rest.length ≤ start.rest.length := by
  induction run with
  | done => simp
  | next round _ inductionHypothesis =>
    obtain ⟨further, _, same, _⟩ := round.forward advances
    simp only [List.length_cons]
    omega

theorem exists_result (advances : loop.Advances) (start : Cursor Entry State) :
    ∃ result, loop.Results start result := by
  -- the induction is on how much is left
  induction left : start.rest.length using Nat.strongRecOn generalizing start with
  | _ length inductionHypothesis =>
    obtain ⟨p, rest, state⟩ := start
    by_cases unread : rest = []
    · subst unread
      exact ⟨_, [], _, .done _, .exhausted p state⟩
    · cases step : loop.body state p rest with
      | error failure => exact ⟨_, [], _, .done _, .fails unread step⟩
      | ok after =>
        cases after with
        | done after => exact ⟨_, [], _, .done _, .leaves unread step⟩
        | yield after =>
          have shorter : (rest.drop (loop.take rest)).length < length := by
            obtain ⟨some, bounded⟩ := advances rest unread
            rw [List.length_drop]
            dsimp only at left
            omega
          obtain ⟨result, taken, cursor, run, ends⟩ :=
            inductionHypothesis _ shorter ⟨p + loop.take rest, rest.drop (loop.take rest), after⟩ rfl
          exact ⟨result, _, cursor, .next (.next unread step) run, ends⟩

/-- A loop that advances terminates. -/
theorem Advances.terminates (advances : loop.Advances) (start : Cursor Entry State) :
    loop.Terminates start where
  forward := fun _ _ _ _ _ round => (round.forward advances).1
  inside := by
    intro taken cursor run
    obtain ⟨_, same, rest⟩ := run_behind advances run
    exact ⟨by omega, rest⟩
  rounds := by
    intro taken cursor run
    have bounded := rounds_le advances run
    omega
  results := by
    obtain ⟨result, results⟩ := exists_result advances start
    exact ⟨result, results, fun other also => also.unique results⟩

end Loop

end CallCenter.Foundation.Reading
