import CallCenter.Foundation.Runs
import Mathlib.Data.List.Basic

/-!
# The pool of database connections

`DBPool` of `dbPool.cpp`.  Every operation holds the mutex from its first look at the pool to its
last, so a step is one operation of one client.  What `CreateConnection` and `isClosed` answer is
part of the action; a pointer is `none` where it is `NULL`.
-/

namespace CallCenter.Model

open CallCenter.Foundation

/-- A `Connection*` other than `NULL`. -/
abbrev Connection := Nat

structure DBPool where
  maxSize : Int := 0
  curSize : Int := 0
  connList : List Connection := []

namespace DBPool

/-- One attempt of `InitConnection`. -/
def initOne (pool : DBPool) : Option Connection → DBPool
  | some conn => { pool with connList := pool.connList ++ [conn], curSize := pool.curSize + 1 }
  | none => pool

/-- `InitConnection`; `attempt` is what each call of `CreateConnection` returns. -/
def initConnection (initSize : Int) (attempt : Nat → Option Connection) (pool : DBPool) : DBPool :=
  ((List.range initSize.toNat).map attempt).foldl initOne pool

def initPool (maxSize : Int) (attempt : Nat → Option Connection) : DBPool :=
  initConnection (maxSize.tdiv 2) attempt { maxSize }

/-- `GetConnection`: whether the first idle connection is found closed, and what `CreateConnection`
returns where it is called. -/
def getConnection (closed : Bool) (created : Option Connection) (pool : DBPool) : Option Connection × DBPool :=
  match pool.connList with
  | front :: rest =>
    let conn := if closed then created else some front
    (conn, { pool with connList := rest, curSize := if conn.isNone then pool.curSize - 1 else pool.curSize })
  | [] =>
    if pool.curSize < pool.maxSize then
      match created with
      | some conn => (some conn, { pool with curSize := pool.curSize + 1 })
      | none => (none, pool)
    else
      (none, pool)

def releaseConnection (conn : Option Connection) (pool : DBPool) : DBPool :=
  match conn with
  | some conn => { pool with connList := pool.connList ++ [conn] }
  | none => pool

end DBPool

/-- The pool and its clients, with the connections each of them holds. -/
structure PoolState where
  pool : DBPool
  lent : List (Nat × Connection) := []

inductive PoolAction where
  | get (client : Nat) (closed : Bool) (created : Option Connection)
  | release (client : Nat) (conn : Option Connection)
  deriving DecidableEq, Repr

namespace PoolState

/-- A connection just created is none of those that exist: the idle ones behind the one that may
have been deleted, and those lent out. -/
def Fresh (state : PoolState) (created : Option Connection) : Prop :=
  ∀ conn ∈ created, conn ∉ state.pool.connList.tail ∧ conn ∉ state.lent.map Prod.snd

instance (state : PoolState) : (created : Option Connection) → Decidable (state.Fresh created)
  | none => isTrue fun _ member => absurd member (Option.not_mem_none _)
  | some conn => decidable_of_iff (conn ∉ state.pool.connList.tail ∧ conn ∉ state.lent.map Prod.snd) (by
      simp [Fresh])

/-- One operation.  A client releases a connection only while it holds it; `ReleaseConnection(NULL)` is
always possible. -/
def step (state : PoolState) : PoolAction → Option PoolState
  | .get client closed created =>
    if state.Fresh created then
      let (conn, pool) := state.pool.getConnection closed created
      some { pool, lent := state.lent ++ conn.toList.map fun conn => (client, conn) }
    else
      none
  | .release client conn =>
    match conn with
    | some held =>
      if (client, held) ∈ state.lent then
        some { pool := state.pool.releaseConnection conn, lent := state.lent.erase (client, held) }
      else
        none
    | none => some { state with pool := state.pool.releaseConnection none }

/-- The pool as `initPool` leaves it. -/
def initial (maxSize : Int) (attempt : Nat → Option Connection) : PoolState :=
  { pool := .initPool maxSize attempt }

end PoolState

end CallCenter.Model
