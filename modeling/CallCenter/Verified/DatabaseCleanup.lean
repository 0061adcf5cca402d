import CallCenter.Model.DbOperator
import Mathlib.Tactic.Common

/-!
# Cleaning up after the connector

The clean-up behind the `catch` block of an operation is right for what the `try` block obtained
once it got as far as the last pointer the clean-up uses.
-/

namespace CallCenter.Verified

open CallCenter.Model

/-- What an operation may do with its pointers. -/
structure CleansUp (connector : Connector) (effects : List DbEffect) : Prop where
  called : ∀ cmd, .callConnection cmd ∈ effects → ∃ conn, cmd = .object conn
  result : ∀ result, .deleteResult result ∈ effects → result = .object ()
  state : ∀ state, .deleteState state ∈ effects → state = .object ()
  released : ∀ conn, connector.raises .getConnection = false → connector.connection = some conn →
    effects.count (.releaseConnection (.object conn)) = 1

/-- How far the `try` block has to get: to its last pointer, the result for a query and the statement
for an insertion. -/
def ObtainsAll (operation : DbOperation) (connector : Connector) : Prop :=
  connector.raises .getConnection = false ∧ connector.connection ≠ none ∧
    connector.raises .createStatement = false ∧
    (operation.columns.isSome = true →
      connector.raises .execute = false ∧ connector.raises .executeQuery = false)

/-- With a connection the clean-up is right exactly when the pointers it deletes were obtained. -/
theorem cleansUp_iff_of_connection (operation : DbOperation) {connector : Connector} {conn : Connection}
    (connected : connector.connection = some conn) {locals : DbLocals} (cmd : locals.cmd = .object conn) :
    CleansUp connector (.callConnection (.object conn) :: operation.cleanUp locals) ↔
      locals.state = .object () ∧ (operation.columns.isSome = true → locals.result = .object ()) := by
  constructor
  · intro cleansUp
    refine ⟨cleansUp.state _ (by simp [DbOperation.cleanUp]), fun keeps => cleansUp.result _ ?_⟩
    simp [DbOperation.cleanUp, keeps]
  · rintro ⟨state, result⟩
    refine ⟨?called, ?result, ?state, ?released⟩
    case called =>
      intro called member
      refine ⟨conn, ?_⟩
      cases keeps : operation.columns.isSome <;> simpa [DbOperation.cleanUp, keeps] using member
    case result =>
      intro deleted member
      cases keeps : operation.columns.isSome with
      | false => simp [DbOperation.cleanUp, keeps] at member
      | true =>
        have isResult : deleted = locals.result := by simpa [DbOperation.cleanUp, keeps] using member
        exact isResult.trans (result keeps)
    case state =>
      intro deleted member
      have isState : deleted = locals.state := by
        cases keeps : operation.columns.isSome <;> simpa [DbOperation.cleanUp, keeps] using member
      exact isState.trans state
    case released =>
      intro other _ obtained
      obtain rfl : conn = other := Option.some.inj (connected.symm.trans obtained)
      cases keeps : operation.columns.isSome <;> simp [DbOperation.cleanUp, keeps, cmd]

/-- An operation cleans up after itself exactly when it gets to the last pointer of its clean-up. -/
theorem run_cleansUp_iff (operation : DbOperation) (connector : Connector) :
    CleansUp connector (operation.run connector).1 ↔ ObtainsAll operation connector := by
  unfold DbOperation.run ObtainsAll
  cases connector.raises .getConnection with
  | true =>
    -- The exception leaves every pointer uninitialised, and the statement is deleted.
    simp only [if_true, Bool.true_eq_false, false_and, iff_false]
    intro cleansUp
    have deleted := cleansUp.state .uninitialised (by simp [DbOperation.cleanUp])
    contradiction
  | false =>
    simp only [Bool.false_eq_true, if_false, true_and]
    cases connected : connector.connection with
    | none =>
      simp only [ne_eq, not_true_eq_false, false_and, iff_false]
      intro cleansUp
      obtain ⟨conn, isNull⟩ := cleansUp.called .null (by simp)
      contradiction
    | some conn =>
      dsimp only
      have cmd : (operation.useConnection connector conn).locals.cmd = .object conn := by
        simp only [DbOperation.useConnection]
        cases operation.columns <;> simp only [] <;> split_ifs <;> rfl
      rw [cleansUp_iff_of_connection operation connected cmd]
      simp only [DbOperation.useConnection, ne_eq, reduceCtorEq, not_false_eq_true, true_and]
      cases connector.raises .createStatement with
      | true => simp
      | false => cases operation.columns with
        | none => cases connector.raises .execute <;> cases connector.raises .executeQuery <;> simp
        | some columns => cases connector.raises .execute <;> cases connector.raises .executeQuery <;> simp

/-- The pool at its limit, with every connection lent out. -/
def exhausted : DBPool := { maxSize := 20, curSize := 20, connList := [] }

/-- On an exhausted pool `GetConnection` returns null, and the operation calls a method on it. -/
theorem exhausted_pool_called :
    ¬ ∀ operation connector, CleansUp connector (DbOperation.run operation connector).1 := by
  intro claim
  have cleansUp := claim .getJavaUserInfo
    { raises := fun _ => false, connection := (exhausted.getConnection false none).1, rows := 1 }
  obtain ⟨conn, isNull⟩ := cleansUp.called .null (by decide)
  contradiction

end CallCenter.Verified
