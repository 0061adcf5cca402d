import CallCenter.Model.DbPool

/-!
# The operations on the database

The ten operations of `db_operator_t` that use a connection, with the pointers they hold and what
they do with them.  What they read is the matter of the functions that return it (`Reload`,
`WsServer`); here it only matters which calls of the connector can raise an `SQLException`.
-/

namespace CallCenter.Model

/-- A local pointer. -/
inductive Pointer (Object : Type) where
  | uninitialised
  | null
  | object (object : Object)
  deriving DecidableEq, Repr

/-- A column read: `getInt` or `getString`. -/
inductive Column where
  | getInt (name : String)
  | getString (name : String)
  deriving DecidableEq, Repr

inductive DbOperation where
  | insertCallInfoSql
  | getagentandpwd
  | getDNchooserule
  | getivrTable
  | getJavaUserInfo
  | getjavauserInfoList
  | selectRouteAgent
  | insertRegInfo
  | getpermission
  | getOutcalllist
  deriving DecidableEq, Repr

namespace DbOperation

/-- The columns of a row in the order they are read; `none` where the result is not kept. -/
def columns : DbOperation → Option (List Column)
  | insertCallInfoSql => none
  | getagentandpwd => some [.getString "agentid", .getString "passwd"]
  | getDNchooserule => some [.getInt "company_id", .getInt "ivr_rule"]
  | getivrTable => some
      [.getInt "enterprise_id", .getInt "company_id", .getInt "node_id", .getString "descript",
       .getString "user_word", .getString "recordfile"]
  | getJavaUserInfo => some
      [.getInt "enterprise_id", .getInt "company_id", .getString "email", .getInt "department_id",
       .getString "login_ip", .getString "mobile", .getString "nick_name", .getString "password",
       .getString "skill_id", .getString "ext_number", .getInt "delete_status", .getString "user_name"]
  | getjavauserInfoList => some
      [.getInt "enterprise_id", .getInt "company_id", .getInt "email", .getInt "department_id",
       .getInt "department_id", .getInt "mobile", .getInt "nick_name", .getInt "password", .getInt "skill_id"]
  | selectRouteAgent => some
      [.getString "group_number", .getString "agent_number", .getString "group_id", .getString "route_name",
       .getString "prefix"]
  | insertRegInfo => none
  | getpermission => some []
  | getOutcalllist => some
      [.getString "task_id", .getString "sex", .getString "name", .getString "phone", .getInt "company_id"]

/-- Whether the operation returns that it read a row; the others return whether an exception was caught. -/
def returnsFound : DbOperation → Bool
  | getJavaUserInfo | getjavauserInfoList | getpermission | getOutcalllist => true
  | _ => false

end DbOperation

/-- A call that can raise. -/
inductive RaisingCall where
  | getConnection
  | createStatement
  | execute
  | executeQuery
  | next (row : Nat)
  | read (row : Nat) (column : Column)
  deriving DecidableEq, Repr

/-- What the pool and the connector do while an operation runs: the calls that raise, what
`GetConnection` returns, and how many rows there are. -/
structure Connector where
  raises : RaisingCall → Bool
  connection : Option Connection
  rows : Nat

/-- The pointers of an operation. -/
structure DbLocals where
  state : Pointer Unit := .uninitialised
  cmd : Pointer Connection := .uninitialised
  result : Pointer Unit := .uninitialised

/-- What an operation does with a pointer. -/
inductive DbEffect where
  | callConnection (cmd : Pointer Connection)
  | deleteResult (result : Pointer Unit)
  | deleteState (state : Pointer Unit)
  | releaseConnection (cmd : Pointer Connection)
  deriving DecidableEq, Repr

/-- How a `try` block ends. -/
structure TryBlock where
  locals : DbLocals
  caught : Bool
  found : Bool := false

namespace DbOperation

/-- The loop over the rows, from row `row` on: whether a row was read, and whether a call raised. -/
def fetch (connector : Connector) (columns : List Column) : Nat → Nat → Bool → Bool × Bool
  | 0, row, found => (found, connector.raises (.next row))
  | ahead + 1, row, found =>
    if connector.raises (.next row) then (found, true)
    else if columns.any fun column => connector.raises (.read row column) then (found, true)
    else fetch connector columns ahead (row + 1) true

/-- The `try` block from `createStatement` on. -/
def useConnection (operation : DbOperation) (connector : Connector) (conn : Connection) : TryBlock :=
  let locals : DbLocals := { cmd := .object conn }
  if connector.raises .createStatement then { locals, caught := true }
  else
    let locals := { locals with state := .object () }
    if connector.raises .execute then { locals, caught := true }
    else if connector.raises .executeQuery then { locals, caught := true }
    else match operation.columns with
      | none => { locals, caught := false }
      | some columns =>
        let (found, caught) := fetch connector columns connector.rows 0 false
        { locals := { locals with result := .object () }, caught, found }

/-- The clean-up behind the `catch` block. -/
def cleanUp (operation : DbOperation) (locals : DbLocals) : List DbEffect :=
  (if operation.columns.isSome then [.deleteResult locals.result] else []) ++
    [.deleteState locals.state, .releaseConnection locals.cmd]

/-- An operation: what it does with its pointers, and what it returns.  A null connection is reported
and then used, which ends the process. -/
def run (operation : DbOperation) (connector : Connector) : List DbEffect × Option Bool :=
  let returned := fun block : TryBlock => if operation.returnsFound then block.found else block.caught
  if connector.raises .getConnection then
    let block : TryBlock := { locals := {}, caught := true }
    (operation.cleanUp block.locals, some (returned block))
  else match connector.connection with
    | none => ([.callConnection .null], none)
    | some conn =>
      let block := operation.useConnection connector conn
      (.callConnection (.object conn) :: operation.cleanUp block.locals, some (returned block))

end DbOperation

end CallCenter.Model
