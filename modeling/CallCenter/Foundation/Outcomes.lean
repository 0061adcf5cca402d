import Mathlib.Data.List.Basic

/-!
# Computations that may fail

When a computation in `Except` ends without a failure, read off its parts.
-/

namespace CallCenter.Foundation.Outcomes

variable {Failure Value Result Entry State : Type}

@[simp] theorem isOk_ok (value : Value) : (Except.ok value : Except Failure Value).isOk = true := rfl

@[simp] theorem isOk_pure (value : Value) : (pure value : Except Failure Value).isOk = true := rfl

@[simp] theorem isOk_error (failure : Failure) :
    (Except.error failure : Except Failure Value).isOk = false := rfl

theorem isOk_iff {outcome : Except Failure Value} : outcome.isOk = true ↔ ∃ value, outcome = .ok value := by
  cases outcome with
  | error failure => simp
  | ok value => simp

theorem isOk_bind_iff {first : Except Failure Value} {next : Value → Except Failure Result} :
    (first >>= next).isOk = true ↔ ∃ value, first = .ok value ∧ (next value).isOk = true := by
  cases first with
  | error failure => simp [bind, Except.bind]
  | ok value => simp [bind, Except.bind]

/-- A computation in two steps that succeeds does so in both. -/
theorem bind_ok {first : Except Failure Value} {next : Value → Except Failure Result} {result : Result}
    (succeeded : (first >>= next) = .ok result) : ∃ value, first = .ok value ∧ next value = .ok result := by
  cases first with
  | error failure => cases succeeded
  | ok value => exact ⟨value, rfl, succeeded⟩

/-- Where what follows fails or not whatever it is given, the parts can be asked one by one. -/
theorem isOk_bind_iff_and {first : Except Failure Value} {next : Value → Except Failure Result} {fine : Prop}
    (each : ∀ value, (next value).isOk = true ↔ fine) : (first >>= next).isOk = true ↔
      first.isOk = true ∧ fine := by
  rw [isOk_bind_iff, isOk_iff]
  constructor
  · rintro ⟨value, isValue, rest⟩
    exact ⟨⟨value, isValue⟩, (each value).mp rest⟩
  · rintro ⟨⟨value, isValue⟩, rest⟩
    exact ⟨value, isValue, (each value).mpr rest⟩

/-- A loop ends without a failure exactly when no entry makes its body fail, where the state does
not matter for that. -/
theorem isOk_foldlM_iff {body : State → Entry → Except Failure State} {fine : Entry → Prop}
    {entries : List Entry}
    (each : ∀ entry ∈ entries, ∀ state, (body state entry).isOk = true ↔ fine entry) (state : State) :
    (entries.foldlM body state).isOk = true ↔ ∀ entry ∈ entries, fine entry := by
  induction entries generalizing state with
  | nil => simp
  | cons entry entries inductionHypothesis =>
    have rest := inductionHypothesis fun other member => each other (List.mem_cons_of_mem _ member)
    rw [List.foldlM_cons, isOk_bind_iff, List.forall_mem_cons, ← each entry List.mem_cons_self state, isOk_iff]
    constructor
    · rintro ⟨next, first, ended⟩
      exact ⟨⟨next, first⟩, (rest next).mp ended⟩
    · rintro ⟨⟨next, first⟩, others⟩
      exact ⟨next, first, (rest next).mpr others⟩

/-! ## Lists of optional values -/

/-- All entries have a value exactly when each has one. -/
theorem isSome_mapM_iff {value : Entry → Option Value} {entries : List Entry} :
    (entries.mapM value).isSome = true ↔ ∀ entry ∈ entries, (value entry).isSome = true := by
  induction entries with
  | nil => simp
  | cons entry entries inductionHypothesis =>
    rw [List.forall_mem_cons, ← inductionHypothesis, List.mapM_cons]
    cases value entry with
    | none => simp
    | some first => cases entries.mapM value <;> simp

theorem mapM_eq_map {value : Entry → Option Value} {known : Entry → Value} {entries : List Entry}
    (each : ∀ entry ∈ entries, value entry = some (known entry)) :
    entries.mapM value = some (entries.map known) := by
  induction entries with
  | nil => rfl
  | cons entry entries inductionHypothesis =>
    rw [List.mapM_cons, each entry List.mem_cons_self,
      inductionHypothesis fun other member => each other (List.mem_cons_of_mem _ member)]
    rfl

end CallCenter.Foundation.Outcomes
