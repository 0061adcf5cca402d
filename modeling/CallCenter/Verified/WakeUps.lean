import CallCenter.Verified.Interleaving

/-!
# Wake-ups of the ACD thread

A picker that waits is woken by a signal, so an agent that becomes ready must either be signalled
afterwards or still lie ahead of the scan.  `SetagnetStatus` signals after its store.  `Signin`
signals before it inserts the agent, and its second branch and `ResetDNinfo` do not signal at all:
those are safe only while a wake-up is due anyway.
-/

namespace CallCenter.Verified

open Std (ExtTreeMap)
open CallCenter.Foundation CallCenter.Model

/-- The company whose agents the ACD thread looks for. -/
def soughtCompany : AcdStand → Option Int
  | .scanning scan => some scan.companyid
  | .waiting _ companyid => some companyid
  | _ => none

/-- The scan has still to look at the agent. -/
def scanAhead (dn : String) (scan : Scan) : Bool :=
  match scan.point with
  | .company => OrderedMap.Ahead dn scan.ite
  | .status => OrderedMap.Ahead dn scan.ite
  | .compare => false
  | .remember => false
  | .advance => OrderedMap.Ahead dn scan.ite ∧ scan.ite ≠ some dn

/-- The ACD thread does not wait and will not miss the agent: its picker has found someone, or has
still to look at the agent. -/
def sees (dn : String) : AcdStand → Bool
  | .scanning scan => scan.choice.isFind || scanAhead dn scan
  | .waiting _ _ => false
  | .idle => true
  | .returned _ => true

/-- A ready agent needs no further signal: the semaphore is posted, an operation has still to signal,
or the thread sees the agent. -/
def WakeUpDue (dn : String) (threads : Threads) : Prop :=
  0 < threads.manager.readyDNsema ∨
    (threads.operations.any fun operation => operation.statements.any Statement.isSignal) = true ∨
      sees dn threads.acd = true

instance (dn : String) (threads : Threads) : Decidable (WakeUpDue dn threads) :=
  inferInstanceAs (Decidable (_ ∨ _ ∨ _))

/-- The agent is a ready agent of the company. -/
def readyIn (companyid : Int) (dn : String) (manager : ManagerDN) : Bool :=
  manager.dnMap[dn]?.any (DNuser.readyFor companyid)

/-- The agent whose entry a statement may create or erase or whose status it writes. -/
def writtenAgent : Statement → Option String
  | .insert strdn _ => some strdn
  | .subscript strdn _ => some strdn
  | .store strdn _ => some strdn
  | .erase strdn => some strdn
  | _ => none

/-- The agent that a statement makes a ready agent of the sought company, when its operation has no
signal left to give. -/
def silentlyReadied (lib : Libraries) (threads : Threads) : ThreadAction → Option String
  | .execute index =>
    match threads.operations[index]?.map Operation.statements, soughtCompany threads.acd with
    | some (statement :: rest), some companyid =>
      (writtenAgent statement).filter fun dn =>
        !rest.any Statement.isSignal && !readyIn companyid dn threads.manager &&
          readyIn companyid dn (statement.execute lib threads.manager)
    | _, _ => none
  | _ => none

/-- Agents are made ready without a signal only while a wake-up is due anyway. -/
def SilentWhenDue (lib : Libraries) (threads : Threads) (action : ThreadAction) : Prop :=
  ∀ dn ∈ silentlyReadied lib threads action, WakeUpDue dn threads

instance (lib : Libraries) (threads : Threads) (action : ThreadAction) :
    Decidable (SilentWhenDue lib threads action) :=
  inferInstanceAs (Decidable (∀ dn ∈ silentlyReadied lib threads action, _))

/-- Every ready agent of the sought company has its wake-up due. -/
def Announced (threads : Threads) : Prop :=
  ∀ companyid ∈ soughtCompany threads.acd, ∀ dn, readyIn companyid dn threads.manager = true →
    WakeUpDue dn threads

/-! ## Statements -/

theorem readyDNsema_execute (lib : Libraries) (statement : Statement) (manager : ManagerDN) :
    (statement.execute lib manager).readyDNsema =
      manager.readyDNsema + if statement.isSignal then 1 else 0 := by
  cases statement <;> rfl

theorem readyIn_eq_true {companyid : Int} {dn : String} {manager : ManagerDN} :
    readyIn companyid dn manager = true ↔
      ∃ user, manager.dnMap[dn]? = some user ∧ user.readyFor companyid = true := by
  simp [readyIn, Option.any_eq_true]

/-- A change that touches neither the company nor the status makes no agent ready. -/
theorem any_readyFor_modify {map : ExtTreeMap String DNuser} {strdn : String} {change : DNuser → DNuser}
    {companyid : Int} (same : ∀ user, (change user).readyFor companyid = user.readyFor companyid)
    (dn : String) :
    (map.modify strdn change)[dn]?.any (DNuser.readyFor companyid) =
      map[dn]?.any (DNuser.readyFor companyid) := by
  rw [ExtTreeMap.getElem?_modify]
  split
  · rename_i equal
    rw [compare_eq_iff_eq] at equal
    subst equal
    cases map[strdn]? with
    | none => rfl
    | some user => exact same user
  · rfl

theorem readyIn_of_ne {lib : Libraries} {statement : Statement} {manager : ManagerDN} {dn : String}
    (other : writtenAgent statement ≠ some dn) (companyid : Int) :
    readyIn companyid dn (statement.execute lib manager) = readyIn companyid dn manager := by
  cases statement with
  | insert strdn user =>
    have different : strdn ≠ dn := fun same => other (congrArg some same)
    simp [readyIn, Statement.execute, ExtTreeMap.getElem?_insertIfNew, different]
  | subscript strdn ambient =>
    have different : strdn ≠ dn := fun same => other (congrArg some same)
    simp [readyIn, Statement.execute, ManagerDN.updateDN, OrderedMap.getElem?_subscript, different]
  | store strdn agentStatus =>
    have different : strdn ≠ dn := fun same => other (congrArg some same)
    simp [readyIn, Statement.execute, ExtTreeMap.getElem?_modify, different]
  | erase strdn =>
    have different : strdn ≠ dn := fun same => other (congrArg some same)
    simp [readyIn, Statement.execute, ExtTreeMap.getElem?_erase, different]
  | department strdn departmentId departmentName userName =>
    refine any_readyFor_modify ?_ dn
    exact fun _ => rfl
  | countCall strdn billsec =>
    refine any_readyFor_modify ?_ dn
    exact fun _ => rfl
  | _ => rfl

/-! ## The silent ones -/

theorem store_notMem_signalIfReady (strdn : String) (status agentStatus : Int) :
    Statement.store strdn status ∉ Statement.signalIfReady agentStatus := by
  rw [Statement.signalIfReady]
  split <;> simp

theorem any_isSignal_signalIfReady :
    (Statement.signalIfReady AgentStatus.waitingReady.code).any Statement.isSignal = true := rfl

/-- What does not come later in a list is its head. -/
theorem first_of_notMem {front rest later : List Statement} {first found : Statement}
    (same : front ++ found :: rest = first :: later) (absent : found ∉ later) : found = first ∧ rest = later := by
  cases front with
  | nil => exact List.cons.inj same
  | cons other front =>
    rw [← (List.cons.inj same).2] at absent
    exact absurd (List.mem_append_right _ List.mem_cons_self) absent

/-- A store that makes an agent ready and no signal follows is that of a repeated sign-in or of a reset. -/
theorem silent_store {request : Request} {manager : ManagerDN} {front rest : List Statement} {dn : String}
    (statements : front ++ .store dn AgentStatus.waitingReady.code :: rest = request.statements manager)
    (silent : rest.any Statement.isSignal = false) :
    (∃ signin ambient, request = .signin signin ambient) ∨
      ∃ departmentId departmentName userName ambient,
        request = .resetDNinfo dn departmentId departmentName userName ambient := by
  have member : Statement.store dn AgentStatus.waitingReady.code ∈ request.statements manager :=
    statements ▸ List.mem_append_right _ List.mem_cons_self
  cases request with
  | signin signin ambient => exact .inl ⟨_, _, rfl⟩
  | signout agentId ambient =>
    simp only [Request.statements] at member
    split at member <;> simp at member
  | setDNstatus agentId agentStatus ambient =>
    simp only [Request.statements, Statement.setagnetStatus, List.cons_append] at statements
    split at statements
    · -- the store is the second statement, and the signal follows it
      cases front with
      | nil => cases statements
      | cons first front =>
        obtain ⟨same, rfl⟩ := first_of_notMem (List.cons.inj statements).2
          (by simp [store_notMem_signalIfReady])
        rw [← (Statement.store.inj same).2, List.any_append, any_isSignal_signalIfReady] at silent
        contradiction
    · simp at statements
  | resetDNinfo agentid departmentId departmentName userName ambient =>
    simp only [Request.statements] at member
    split at member
    · simp only [List.mem_cons, Statement.store.injEq, reduceCtorEq, List.not_mem_nil, or_false, false_or] at member
      exact .inr ⟨_, _, _, _, by rw [member.1]⟩
    · simp at member
  | channelAnswer event ambient =>
    simp only [Request.statements] at member
    split at member
    · simp [Statement.setagnetStatus, store_notMem_signalIfReady, AgentStatus.code] at member
    · simp at member
  | channelDestroy event ambient =>
    simp only [Request.statements, Statement.setagnetStatus, List.cons_append] at statements
    split at statements
    · -- the store is the first statement
      obtain ⟨-, rfl⟩ := first_of_notMem statements (by simp [store_notMem_signalIfReady])
      simp [Statement.isSignal] at silent
    · simp at statements
  | reloaddb vRoute => simp [Request.statements] at member

theorem insert_of_signin {request : Request} {manager : ManagerDN} {dn : String} {user : DNuser}
    (member : .insert dn user ∈ request.statements manager) : ∃ signin ambient, request = .signin signin ambient := by
  have notSignal (status : Int) : Statement.insert dn user ∉ Statement.signalIfReady status := by
    rw [Statement.signalIfReady]
    split <;> simp
  cases request with
  | signin signin ambient => exact ⟨_, _, rfl⟩
  | _ =>
    simp only [Request.statements, Statement.setagnetStatus] at member
    try split at member
    all_goals simp [notSignal] at member

/-- A store makes ready only when it stores that. -/
theorem stored_of_readyIn {lib : Libraries} {manager : ManagerDN} {companyid : Int} {strdn : String}
    {agentStatus : Int}
    (ready : readyIn companyid strdn (Statement.execute lib manager (.store strdn agentStatus)) = true) :
    agentStatus = AgentStatus.waitingReady.code := by
  simp only [readyIn, Statement.execute, ExtTreeMap.getElem?_modify_self, Option.any_map] at ready
  obtain ⟨user, _, isReady⟩ := (Option.any_eq_true _ _).mp ready
  simpa [DNuser.readyFor, DNuser.setagnetStatus] using (Bool.and_eq_true_iff.mp isReady).2

/-- `operator[]` leaves an entry that is there as it is. -/
theorem readyIn_subscript {lib : Libraries} {manager : ManagerDN} {companyid : Int} {strdn : String}
    {ambient : Ambient} (present : strdn ∈ manager.dnMap) :
    readyIn companyid strdn (Statement.execute lib manager (.subscript strdn ambient)) =
      readyIn companyid strdn manager := by
  obtain ⟨user, there⟩ := Option.isSome_iff_exists.mp (ExtTreeMap.mem_iff_isSome_getElem?.mp present)
  simp [readyIn, Statement.execute, ManagerDN.updateDN, OrderedMap.getElem?_subscript, there]

/-- The statements that make an agent ready without a signal: the insertion of a sign-in, the store of a
repeated one, and that of a reset.  The lookup through `operator[]` is one only where the entry has gone
since the operation found it. -/
theorem silent_statements {lib : Libraries} {manager : ManagerDN} {tasks : List CallTask}
    {actions : List ThreadAction} {reached : Threads}
    (run : Run (Steps (Threads.step lib)) (Threads.initial manager tasks) actions reached) {index : Nat}
    {dn : String} (silent : silentlyReadied lib reached (.execute index) = some dn) :
    ∃ operation statement rest, reached.operations[index]? = some operation ∧
      operation.statements = statement :: rest ∧
      ((∃ signin ambient user, operation.request = .signin signin ambient ∧ statement = .insert dn user) ∨
        (∃ signin ambient, operation.request = .signin signin ambient ∧
          statement = .store dn AgentStatus.waitingReady.code) ∨
        (∃ departmentId departmentName userName ambient,
          operation.request = .resetDNinfo dn departmentId departmentName userName ambient ∧
          statement = .store dn AgentStatus.waitingReady.code) ∨
        ∃ ambient, statement = .subscript dn ambient ∧ dn ∉ reached.manager.dnMap) := by
  simp only [silentlyReadied] at silent
  split at silent
  · rename_i statement rest companyid next sought
    obtain ⟨operation, at?, next⟩ := Option.map_eq_some_iff.mp next
    obtain ⟨written, quiet⟩ := Option.filter_eq_some_iff.mp silent
    simp only [Bool.and_eq_true, Bool.not_eq_true'] at quiet
    obtain ⟨⟨noSignal, notBefore⟩, ready⟩ := quiet
    obtain ⟨found, whole, _⟩ := fromLookup_run run operation (List.mem_of_getElem? at?)
    rw [next] at whole
    have member : statement ∈ operation.request.statements found :=
      whole ▸ List.mem_append_right _ List.mem_cons_self
    refine ⟨operation, statement, rest, at?, next, ?_⟩
    cases statement with
    | insert strdn user =>
      obtain rfl := Option.some.inj written
      obtain ⟨signin, ambient, same⟩ := insert_of_signin member
      exact .inl ⟨signin, ambient, user, same, rfl⟩
    | store strdn agentStatus =>
      obtain rfl := Option.some.inj written
      obtain rfl := stored_of_readyIn ready
      rcases silent_store whole noSignal with ⟨signin, ambient, same⟩ | ⟨id, name, user, ambient, same⟩
      · exact .inr (.inl ⟨signin, ambient, same, rfl⟩)
      · exact .inr (.inr (.inl ⟨id, name, user, ambient, same, rfl⟩))
    | subscript strdn ambient =>
      obtain rfl := Option.some.inj written
      refine .inr (.inr (.inr ⟨ambient, rfl, fun present => ?_⟩))
      rw [readyIn_subscript present, notBefore] at ready
      contradiction
    | erase strdn =>
      obtain rfl := Option.some.inj written
      simp [readyIn, Statement.execute] at ready
    | _ => simp [writtenAgent] at written
  · contradiction

/-! ## The scan -/

/-- Each statement of a picker leaves it seeing the ready agents it saw. -/
theorem sees_step {ambient : Ambient} {manager : ManagerDN} {scan : Scan} {stand : AcdStand} {dn : String}
    (moves : scan.step ambient manager = some stand) (ready : readyIn scan.companyid dn manager = true)
    (seen : sees dn (.scanning scan) = true) : sees dn stand = true := by
  obtain ⟨user, present, readyFor⟩ := readyIn_eq_true.mp ready
  simp only [DNuser.readyFor, Bool.and_eq_true, beq_iff_eq] at readyFor
  obtain ⟨ours, waits⟩ := readyFor
  obtain ⟨picker, companyid, ite, point, choice⟩ := scan
  dsimp only at ours
  cases ite with
  | none =>
    -- behind the last entry only the flag can see an agent, and then the scan ends with a choice
    have found : choice.isFind = true := by
      cases point <;> simpa [sees, scanAhead] using seen
    simp only [Scan.step, found, if_true, Option.some.injEq] at moves
    subst moves
    rfl
  | some key =>
    obtain ⟨entry, atKey, rfl⟩ := Option.map_eq_some_iff.mp moves
    -- at the agent itself the scan reads the entry that makes it ready
    have same : key = dn → entry = user := by
      rintro rfl
      exact Option.some.inj (atKey.symm.trans present)
    cases point with
    | company =>
      by_cases own : companyid = entry.commpanyid.value
      · simpa [sees, scanAhead, own] using seen
      · have other : key ≠ dn := fun equal => own (same equal ▸ ours)
        simpa [sees, scanAhead, own, other] using seen
    | status =>
      by_cases free : entry.agentstatus.value = AgentStatus.waitingReady.code
      · by_cases robin : picker = .robin <;> simp [sees, free, robin]
      · have other : key ≠ dn := fun equal => free (same equal ▸ waits)
        simpa [sees, scanAhead, free, other] using seen
    | compare =>
      have found : choice.isFind = true := by simpa [sees, scanAhead] using seen
      simp [sees, found]
    | remember =>
      have found : choice.isFind = true := by simpa [sees, scanAhead] using seen
      simp [sees, found]
    | advance =>
      -- an agent ahead of the iterator, and not at it, is ahead of the next one
      simp only [sees, scanAhead, Bool.or_eq_true, decide_eq_true_eq] at seen ⊢
      refine seen.imp_right ?_
      rintro ⟨ahead, different⟩
      exact OrderedMap.ahead_next? (OrderedMap.mem_keys_of_getElem? present) ahead (by simpa using different)

theorem soughtCompany_step {ambient : Ambient} {manager : ManagerDN} {scan : Scan} {stand : AcdStand}
    {companyid : Int} (moves : scan.step ambient manager = some stand)
    (sought : soughtCompany stand = some companyid) : scan.companyid = companyid := by
  unfold Scan.step at moves
  split at moves
  · obtain rfl := Option.some.inj moves
    by_cases found : scan.choice.isFind = true
    · simp [found, soughtCompany] at sought
    · simpa [found, soughtCompany] using sought
  · obtain ⟨user, _, rfl⟩ := Option.map_eq_some_iff.mp moves
    cases point : scan.point with
    | status =>
      by_cases free : user.agentstatus.value = AgentStatus.waitingReady.code
      · by_cases robin : scan.picker = .robin
        · simp [point, free, robin, soughtCompany] at sought
        · simpa [point, free, robin, soughtCompany] using sought
      · simpa [point, free, soughtCompany] using sought
    | _ => simpa [point, soughtCompany] using sought

theorem sees_start {picker : Picker} {companyid : Int} {manager : ManagerDN} {dn : String}
    (ready : readyIn companyid dn manager = true) :
    sees dn (.scanning (.start picker companyid manager)) = true := by
  obtain ⟨user, present, _⟩ := readyIn_eq_true.mp ready
  simp [sees, Scan.start, scanAhead, OrderedMap.ahead_begin? (OrderedMap.mem_keys_of_getElem? present)]

/-! ## Runs -/

/-- A wake-up that is due stays due, or is given, when a statement is executed. -/
theorem wakeUpDue_execute {lib : Libraries} {threads : Threads} {index : Nat} {operation : Operation}
    {statement : Statement} {rest : List Statement} {dn : String}
    (at? : threads.operations[index]? = some operation) (next : operation.statements = statement :: rest)
    (due : WakeUpDue dn threads) :
    WakeUpDue dn { threads with
      manager := statement.execute lib threads.manager
      operations := threads.operations.set index (operation.advance statement rest) } := by
  -- the three reasons a wake-up is due; the signal may be the statement executed now
  rcases due with posted | signal | seen
  · exact .inl (by simp only [readyDNsema_execute]; omega)
  · rcases any_left_of_any at? next signal with now | later
    · exact .inl (by simp [readyDNsema_execute, now])
    · exact .inr (.inl later)
  · exact .inr (.inr seen)

theorem wakeUpDue_record {operation : Operation} {statement : Statement} {threads : Threads} {dn : String} :
    WakeUpDue dn (threads.record operation statement) ↔ WakeUpDue dn threads := by
  obtain ⟨manager, operations, acd⟩ := record_manager operation statement threads
  simp only [WakeUpDue, manager, operations, acd]

/-- A statement that makes an agent ready leaves its wake-up due. -/
theorem wakeUpDue_of_readied {lib : Libraries} {threads : Threads} {index : Nat} {operation : Operation}
    {statement : Statement} {rest : List Statement} {dn : String} {companyid : Int}
    (admitted : SilentWhenDue lib threads (.execute index))
    (at? : threads.operations[index]? = some operation) (next : operation.statements = statement :: rest)
    (sought : soughtCompany threads.acd = some companyid)
    (before : readyIn companyid dn threads.manager = false)
    (after : readyIn companyid dn (statement.execute lib threads.manager) = true) :
    WakeUpDue dn { threads with
      manager := statement.execute lib threads.manager
      operations := threads.operations.set index (operation.advance statement rest) } := by
  -- only a statement that writes the agent can change whether it is ready
  have written : writtenAgent statement = some dn := by
    by_contra other
    rw [readyIn_of_ne other, before] at after
    contradiction
  -- either the operation signals later, or it is silent and was admitted as such
  cases signals : rest.any Statement.isSignal with
  | true =>
    refine .inr (.inl (List.any_eq_true.mpr ⟨operation.advance statement rest, ?_, signals⟩))
    exact List.mem_set (List.getElem?_eq_some_iff.mp at?).1 _
  | false =>
    refine wakeUpDue_execute at? next (admitted dn ?_)
    simp [silentlyReadied, at?, next, sought, written, signals, before, after]

/-! ## Runs -/

theorem announced_step {lib : Libraries} {before after : Threads} {action : ThreadAction}
    (admitted : SilentWhenDue lib before action) (taken : before.step lib action = some after)
    (announced : Announced before) : Announced after := by
  intro companyid sought dn ready
  cases threadTook_of_step taken with
  | begin request =>
    obtain ⟨sameAgents, sameCount, _⟩ := opening_eq request before.manager
    have due := announced companyid sought dn (by simpa [readyIn, Threads.begin, sameAgents] using ready)
    rcases due with posted | signal | seen
    · exact .inl (by simpa [Threads.begin, sameCount] using posted)
    · exact .inr (.inl (by simp [Threads.begin, signal]))
    · exact .inr (.inr seen)
  | execute at? next =>
    rw [wakeUpDue_record]
    obtain ⟨manager, _, acd⟩ := record_manager _ _ _
    rw [acd] at sought
    rw [manager] at ready
    -- an agent that was ready has its wake-up due already; one made ready by this statement gets it
    cases before? : readyIn companyid dn before.manager with
    | true => exact wakeUpDue_execute at? next (announced companyid sought dn before?)
    | false => exact wakeUpDue_of_readied admitted at? next sought before? ready
  | getavailableAgent stands =>
    -- a scan that starts has everyone ahead of it
    obtain rfl : _ = companyid := Option.some.inj sought
    exact .inr (.inr (sees_start ready))
  | scan stands moves =>
    -- the scan moves on and keeps in sight whom it saw; the other two reasons do not concern it
    have same := soughtCompany_step moves sought
    subst same
    have due := announced _ (by rw [stands]; rfl) dn ready
    refine due.imp_right fun later => later.imp_right fun seen => ?_
    exact sees_step moves ready (stands ▸ seen)
  | scanAgain stands posted =>
    obtain rfl : _ = companyid := Option.some.inj sought
    exact .inr (.inr (sees_start ready))
  | dispatch stands => contradiction
  | task at? moves => exact announced companyid sought dn ready
  | wake at? blocked posted => exact announced companyid sought dn ready

/-- In every run whose silent stores happen only while a wake-up is due, the ACD thread does not
wait past a ready agent: with all operations completed and no permit left, the company it waits for
has none. -/
theorem no_lost_wake_up {lib : Libraries} {manager : ManagerDN} {tasks : List CallTask}
    {actions : List ThreadAction} {reached : Threads} {picker : Picker} {companyid : Int}
    (run : Run (Guarded (SilentWhenDue lib) (Steps (Threads.step lib))) (Threads.initial manager tasks) actions
      reached)
    (completed : reached.completed = true) (waits : reached.acd = .waiting picker companyid)
    (empty : reached.manager.readyDNsema = 0) :
    reached.manager.getWaitingDN companyid = 0 := by
  have announced : Announced reached :=
    run.invariant Announced (fun _ _ _ step => announced_step step.1 step.2) fun _ sought => nomatch sought
  -- a ready agent would have a wake-up due, and none of the three reasons is left
  refine List.countP_eq_zero.mpr fun entry listed ready => ?_
  have present := OrderedMap.mem_toList_iff.mp listed
  rcases announced companyid (by rw [waits]; rfl) entry.1 (readyIn_eq_true.mpr ⟨entry.2, present, ready⟩) with
    posted | signal | seen
  · omega
  · obtain ⟨operation, running, signals⟩ := List.any_eq_true.mp signal
    have ended := List.all_eq_true.mp completed operation running
    rw [List.isEmpty_iff] at ended
    simp [ended] at signals
  · rw [waits] at seen
    contradiction

/-- The agents of the small installation may sign in. -/
def routedManager : ManagerDN := { gRoute := companyRoutes }

/-- What the sign-in `readyAgent` asks of the threads. -/
def signsInReady (dn : String) : Request :=
  .signin { agentId := dn, agentDn := dn, agentPwd := "", autoAnswer := false, fcSignin := false,
            statusChangetype := AgentStatus.waitingReady.code, skills := "sales", departmentId := 1,
            departmentName := "sales", userName := dn, peerIP := "10.0.0.7" } noon

/-- An agent signs in and asks for a break before the picker waits. -/
def breakBeforeScan : List ThreadAction :=
  [.begin (signsInReady "1001"), .execute 0, .execute 0, .execute 0,
   .begin (.setDNstatus "1001" AgentStatus.parking.code noon), .execute 1, .execute 1, .execute 1,
   .getavailableAgent .robin 1, .acd noon, .acd noon, .acd noon, .acd noon, .acd noon,
   .acd noon, .acd noon, .acd noon, .acd noon]

theorem no_lost_wake_up_break :
    (finish (Threads.step lockedDatabase)
      (Threads.initial routedManager []) breakBeforeScan).manager.getWaitingDN 1 =
      0 :=
  have waits : (finish (Threads.step lockedDatabase) (Threads.initial routedManager []) breakBeforeScan).acd =
      .waiting .robin 1 := rfl
  no_lost_wake_up (guardedRun_finish (by decide +kernel)) (by decide +kernel) waits (by decide +kernel)

/-- The picker takes the signal of a sign-in before the agent is in the map. -/
def signalBeforeInsert : List ThreadAction :=
  [.getavailableAgent .robin 1, .acd noon, .begin (signsInReady "1001"), .execute 0, .acd noon, .acd noon,
   .execute 0, .execute 0]

theorem ready_agent_not_heard :
    ¬ ∀ (manager : ManagerDN) (tasks : List CallTask) (actions : List ThreadAction) (reached : Threads)
      (picker : Picker) (companyid : Int),
      Run (Steps (Threads.step lockedDatabase)) (Threads.initial manager tasks) actions reached →
      reached.completed = true → reached.acd = .waiting picker companyid → reached.manager.readyDNsema = 0 →
      reached.manager.getWaitingDN companyid = 0 := by
  intro heard
  have waits : (finish (Threads.step lockedDatabase)
      (Threads.initial routedManager []) signalBeforeInsert).acd =
      .waiting .robin 1 := rfl
  have nobody := heard routedManager [] signalBeforeInsert _ .robin 1 (run_finish (by decide +kernel))
    (by decide +kernel) waits (by decide +kernel)
  revert nobody
  decide +kernel

end CallCenter.Verified
