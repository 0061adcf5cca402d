import CallCenter.Model.DbPool
import Mathlib.Data.List.Nodup

/-!
# The accounts of the connection pool

However connection attempts fail, in every run of the clients the counter of the pool is the number
of connections that exist, and no connection is in two places.
-/

namespace CallCenter.Verified

open CallCenter.Foundation CallCenter.Model

/-- The connections that exist: the idle ones and those lent out. -/
def existing (state : PoolState) : List Connection := state.pool.connList ++ state.lent.map Prod.snd

/-- The counter counts the connections that exist, within the limit, and each is in one place. -/
structure Accounted (state : PoolState) : Prop where
  counted : state.pool.curSize = (existing state).length
  bounded : 0 ≤ state.pool.maxSize → state.pool.curSize ≤ state.pool.maxSize
  distinct : (existing state).Nodup

/-! ## After initPool -/

theorem foldl_initOne (attempts : List (Option Connection)) (pool : DBPool) :
    attempts.foldl DBPool.initOne pool =
      { pool with
        connList := pool.connList ++ attempts.filterMap id
        curSize := pool.curSize + (attempts.filterMap id).length } := by
  induction attempts generalizing pool with
  | nil => simp
  | cons attempt attempts inductionHypothesis =>
    rw [List.foldl_cons, inductionHypothesis]
    cases attempt with
    | none => simp [DBPool.initOne]
    | some conn =>
      simp only [DBPool.initOne, List.filterMap_cons, id, List.append_assoc, List.singleton_append,
        List.length_cons]
      congr 1
      omega

/-- At most half of the limit is connected at the start, each attempt to a connection of its own. -/
theorem accounted_initial {maxSize : Int} {attempt : Nat → Option Connection}
    (fresh : ∀ first second conn, attempt first = some conn → attempt second = some conn → first = second) :
    Accounted (.initial maxSize attempt) := by
  let attempts := (List.range (maxSize.tdiv 2).toNat).map attempt
  have pool : DBPool.initPool maxSize attempt =
      { maxSize, curSize := (attempts.filterMap id).length, connList := attempts.filterMap id } := by
    simp only [DBPool.initPool, DBPool.initConnection, foldl_initOne]
    simp [attempts]
  have size : (attempts.filterMap id).length ≤ (maxSize.tdiv 2).toNat := by
    have shorter := List.length_filterMap_le id attempts
    simpa [attempts] using shorter
  refine ⟨?counted, ?bounded, ?distinct⟩
  case counted => simp [existing, PoolState.initial, pool]
  case bounded =>
    intro limit
    simp only [PoolState.initial, pool] at limit ⊢
    rw [Int.tdiv_eq_ediv_of_nonneg limit] at size
    omega
  case distinct =>
    simp only [existing, PoolState.initial, pool, List.map_nil, List.append_nil, attempts, List.filterMap_map]
    refine List.Nodup.filterMap ?_ List.nodup_range
    intro first second conn atFirst atSecond
    exact fresh first second conn atFirst atSecond

/-! ## One step -/

theorem lend_perm (idle : List Connection) (lent : List (Nat × Connection)) (client : Nat) (conn : Connection) :
    (idle ++ (lent ++ [(client, conn)]).map Prod.snd).Perm (conn :: (idle ++ lent.map Prod.snd)) := by
  rw [List.map_append, ← List.append_assoc]
  exact List.perm_append_singleton conn _

section Steps

variable {state : PoolState} (accounted : Accounted state)
include accounted

/-- A connection lent out is an idle one, or one created in its place or in addition. -/
theorem accounted_get {client : Nat} {closed : Bool} {created : Option Connection}
    (fresh : state.Fresh created) :
    Accounted
      { pool := (state.pool.getConnection closed created).2
        lent := state.lent ++
          (state.pool.getConnection closed created).1.toList.map fun conn => (client, conn) } := by
  obtain ⟨⟨maxSize, curSize, connList⟩, lent⟩ := state
  obtain ⟨counted, bounded, distinct⟩ := accounted
  dsimp only [PoolState.Fresh, existing] at fresh counted bounded distinct
  cases connList with
  | cons front rest =>
    rw [List.cons_append] at counted distinct
    have others := (List.nodup_cons.mp distinct).2
    cases closed with
    | false =>
      -- the front connection is open and goes to the client
      refine ⟨?_, bounded, (lend_perm rest lent client front).nodup_iff.mpr distinct⟩
      exact counted.trans (congrArg Nat.cast (lend_perm rest lent client front).length_eq.symm)
    | true =>
      -- it was closed: one is created in its place, or the pool has one less
      rw [List.length_cons] at counted
      cases created with
      | none =>
        refine ⟨?_, fun limit => ?_, ?_⟩
        · show curSize - 1 = ((rest ++ (lent ++ []).map Prod.snd).length : Int)
          rw [List.append_nil]
          omega
        · show curSize - 1 ≤ maxSize
          have within := bounded limit
          omega
        · simpa [existing, DBPool.getConnection] using others
      | some conn =>
        have new : (conn :: (rest ++ lent.map Prod.snd)).Nodup := by
          refine List.nodup_cons.mpr ⟨?_, others⟩
          have nowhere := fresh conn rfl
          simpa using nowhere
        refine ⟨?_, bounded, (lend_perm rest lent client conn).nodup_iff.mpr new⟩
        show curSize = ((rest ++ (lent ++ [(client, conn)]).map Prod.snd).length : Int)
        rw [(lend_perm rest lent client conn).length_eq, List.length_cons]
        exact counted
  | nil =>
    -- nothing is idle: one more is created while there is room, and otherwise nothing happens
    by_cases room : curSize < maxSize
    · cases created with
      | none => simpa [DBPool.getConnection, room] using
        (⟨counted, bounded, distinct⟩ : Accounted ⟨⟨maxSize, curSize, []⟩, lent⟩)
      | some conn =>
        have new : (conn :: ([] ++ lent.map Prod.snd)).Nodup :=
          List.nodup_cons.mpr ⟨(fresh conn rfl).2, distinct⟩
        simp only [DBPool.getConnection, room, if_true]
        refine ⟨?_, fun _ => ?_, (lend_perm [] lent client conn).nodup_iff.mpr new⟩
        · show curSize + 1 = (([] ++ (lent ++ [(client, conn)]).map Prod.snd).length : Int)
          rw [(lend_perm [] lent client conn).length_eq, List.length_cons]
          omega
        · show curSize + 1 ≤ maxSize
          omega
    · simpa [DBPool.getConnection, room] using
        (⟨counted, bounded, distinct⟩ : Accounted ⟨⟨maxSize, curSize, []⟩, lent⟩)

/-- A released connection goes from its client to the idle ones. -/
theorem accounted_release {client : Nat} {held : Connection} (holds : (client, held) ∈ state.lent) :
    Accounted
      { pool := state.pool.releaseConnection (some held)
        lent := state.lent.erase (client, held) } := by
  obtain ⟨⟨maxSize, curSize, connList⟩, lent⟩ := state
  have moved : (connList ++ [held] ++ (lent.erase (client, held)).map Prod.snd).Perm
      (connList ++ lent.map Prod.snd) := by
    rw [List.append_assoc]
    refine List.Perm.append_left connList ?_
    exact (List.perm_cons_erase holds).symm.map Prod.snd
  refine ⟨?counted, accounted.bounded, ?distinct⟩
  case counted =>
    have counted := accounted.counted
    simp only [existing] at counted
    rw [counted, existing, ← moved.length_eq]
    rfl
  case distinct => exact moved.nodup_iff.mpr accounted.distinct

theorem accounted_step {action : PoolAction} {after : PoolState} (taken : state.step action = some after) :
    Accounted after := by
  cases action with
  | get client closed created =>
    simp only [PoolState.step, Option.ite_none_right_eq_some] at taken
    obtain ⟨fresh, taken⟩ := taken
    obtain rfl := Option.some.inj taken
    exact accounted_get accounted fresh
  | release client conn => cases conn with
    | none =>
      obtain rfl := Option.some.inj taken
      exact accounted
    | some held =>
      simp only [PoolState.step, Option.ite_none_right_eq_some] at taken
      obtain ⟨holds, taken⟩ := taken
      obtain rfl := Option.some.inj taken
      exact accounted_release accounted holds

end Steps

theorem maxSize_getConnection (closed : Bool) (created : Option Connection) (pool : DBPool) :
    (pool.getConnection closed created).2.maxSize = pool.maxSize := by
  unfold DBPool.getConnection
  split
  · rfl
  · split
    · cases created <;> rfl
    · rfl

theorem maxSize_step {before after : PoolState} {action : PoolAction}
    (taken : before.step action = some after) :
    after.pool.maxSize = before.pool.maxSize := by
  cases action with
  | get client closed created =>
    simp only [PoolState.step, Option.ite_none_right_eq_some] at taken
    obtain rfl := Option.some.inj taken.2
    exact maxSize_getConnection closed created before.pool
  | release client conn => cases conn with
    | none =>
      obtain rfl := Option.some.inj taken
      rfl
    | some held =>
      simp only [PoolState.step, Option.ite_none_right_eq_some] at taken
      obtain rfl := Option.some.inj taken.2
      rfl

/-! ## Runs -/

/-- In every state the clients can reach after `initPool` the counter is the number of idle connections
plus that of lent ones, within the limit, and no connection is lent twice, or lent and idle. -/
theorem pool_accounts (maxSize : Int) (attempt : Nat → Option Connection)
    (fresh : ∀ first second conn, attempt first = some conn → attempt second = some conn → first = second)
    (actions : List PoolAction) (state : PoolState)
    (run : Run (Steps PoolState.step) (.initial maxSize attempt) actions state) :
    state.pool.curSize = state.pool.connList.length + state.lent.length ∧
      (0 ≤ maxSize → state.pool.curSize ≤ maxSize) ∧
      (state.lent.map Prod.snd).Nodup ∧
      ∀ conn ∈ state.pool.connList, conn ∉ state.lent.map Prod.snd := by
  have accounted := run.invariant Accounted (fun _ _ _ taken accounted => accounted_step accounted taken)
    (accounted_initial fresh)
  have limit := run.invariant (fun state => state.pool.maxSize = maxSize)
    (fun _ _ _ taken same => (maxSize_step taken).trans same)
    (by simp [PoolState.initial, DBPool.initPool, DBPool.initConnection, foldl_initOne])
  have counted := accounted.counted
  have distinct := List.nodup_append.mp accounted.distinct
  simp only [existing, List.length_append, List.length_map, Int.natCast_add] at counted
  refine ⟨counted, fun nonneg => limit ▸ accounted.bounded (limit ▸ nonneg), distinct.2.1, ?_⟩
  intro conn idle lent
  exact distinct.2.2 conn idle conn lent rfl

/-- Every other connection attempt fails. -/
def everyOther (i : Nat) : Option Connection := if i % 2 = 0 then some i else none

/-- A client finds the first idle connection closed and cannot reconnect, another is lent one and gives
it back. -/
def lossAndReturn : List PoolAction :=
  [.get 1 true none, .get 2 false none, .release 1 none, .release 2 (some 2)]

theorem pool_accounts_twenty :
    (finish PoolState.step (.initial 20 everyOther) lossAndReturn).pool.curSize = 4 ∧
      (finish PoolState.step (.initial 20 everyOther) lossAndReturn).pool.curSize ≤ 20 := by
  have fresh : ∀ first second conn, everyOther first = some conn → everyOther second = some conn →
      first = second := by
    intro first second conn atFirst atSecond
    simp only [everyOther, Option.ite_none_right_eq_some, Option.some.injEq] at atFirst atSecond
    exact atFirst.2.trans atSecond.2.symm
  have accounts := pool_accounts 20 everyOther fresh lossAndReturn _ (run_finish (by decide +kernel))
  exact ⟨accounts.1.trans (by decide +kernel), accounts.2.1 (by decide)⟩

end CallCenter.Verified
