import CallCenter.Verified.Steps

/-!
# What the pickers return

A pass of a picker finds someone exactly when the company has a ready agent, and then returns a
ready agent of the company or the empty string.
-/

namespace CallCenter.Verified

open Std (ExtTreeMap)
open CallCenter.Foundation CallCenter.Model

section Compare

variable {companyid start : Int} {improves : Int → DNuser → Bool} {measure : DNuser → Int}
  {agents : List (String × DNuser)}

theorem visit_of_not_ready {choice : Choice} {entry : String × DNuser}
    (notReady : entry.2.readyFor companyid = false) :
    choice.visit companyid improves measure entry = choice := by
  simp [Choice.visit, notReady]

@[simp] theorem isFind_visit (choice : Choice) (entry : String × DNuser) :
    (choice.visit companyid improves measure entry).isFind =
      (choice.isFind || entry.2.readyFor companyid) := by
  unfold Choice.visit
  cases entry.2.readyFor companyid
  · simp
  · simp only [if_true, Bool.or_true]
    split <;> rfl

theorem isFind_foldl (choice : Choice) :
    (agents.foldl (Choice.visit companyid improves measure) choice).isFind =
      (choice.isFind || agents.any fun entry => entry.2.readyFor companyid) := by
  induction agents generalizing choice with
  | nil => simp
  | cons entry agents inductionHypothesis =>
    rw [List.foldl_cons, inductionHypothesis, isFind_visit, List.any_cons, Bool.or_assoc]

/-- The locals only ever hold the empty string or a ready agent that was visited. -/
theorem dn_foldl :
    (agents.foldl (Choice.visit companyid improves measure) { maxidelminiute := start }).dn = "" ∨
      ∃ user, ((agents.foldl (Choice.visit companyid improves measure) { maxidelminiute := start }).dn, user)
        ∈ agents ∧ user.readyFor companyid = true := by
  refine List.foldlRecOn agents (Choice.visit companyid improves measure)
    (motive := fun choice => choice.dn = "" ∨
      ∃ user, (choice.dn, user) ∈ agents ∧ user.readyFor companyid = true)
    ?_ ?_
  · exact .inl rfl
  · intro choice sound entry member
    unfold Choice.visit
    split
    · rename_i ready
      split
      · exact .inr ⟨entry.2, member, ready⟩
      · exact sound
    · exact sound

theorem compareAgents_eq_none_iff :
    compareAgents companyid start improves measure agents = none ↔
      ∀ entry ∈ agents, entry.2.readyFor companyid = false := by
  simp [compareAgents, isFind_foldl]

theorem compareAgents_ready {dn : String}
    (found : compareAgents companyid start improves measure agents = some dn) :
    dn = "" ∨ ∃ user, (dn, user) ∈ agents ∧ user.readyFor companyid = true := by
  simp only [compareAgents, Option.ite_none_right_eq_some, Option.some.injEq] at found
  obtain ⟨_, rfl⟩ := found
  exact dn_foldl

end Compare

/-- A pass finds nobody exactly when the company has no ready agent. -/
theorem pick_eq_none_iff {picker : Picker} {companyid : Int} {ambient : Ambient} {manager : ManagerDN} :
    manager.pick picker companyid ambient = none ↔ manager.getWaitingDN companyid = 0 := by
  have entries : manager.getWaitingDN companyid = 0 ↔
      ∀ entry ∈ manager.dnMap.toList, entry.2.readyFor companyid = false := by
    simp [ManagerDN.getWaitingDN, List.countP_eq_zero]
  rw [entries]
  cases picker with
  | robin => simp [ManagerDN.pick, ManagerDN.getAgentRobin]
  | idelAgent => exact compareAgents_eq_none_iff
  | leastTalkTime => exact compareAgents_eq_none_iff
  | fewestCalls => exact compareAgents_eq_none_iff

/-- A pass returns a ready agent of the company, or the empty string. -/
theorem pick_ready {picker : Picker} {companyid : Int} {ambient : Ambient} {manager : ManagerDN} {dn : String}
    (found : manager.pick picker companyid ambient = some dn) :
    dn = "" ∨ ∃ user, manager.dnMap[dn]? = some user ∧ user.readyFor companyid = true := by
  have entries : (∃ user, (dn, user) ∈ manager.dnMap.toList ∧ user.readyFor companyid = true) →
      ∃ user, manager.dnMap[dn]? = some user ∧ user.readyFor companyid = true :=
    fun ⟨user, member, ready⟩ => ⟨user, OrderedMap.mem_toList_iff.mp member, ready⟩
  cases picker with
  | robin =>
    obtain ⟨entry, first, rfl⟩ := Option.map_eq_some_iff.mp found
    have ready := List.find?_some first
    exact .inr (entries ⟨entry.2, List.mem_of_find?_eq_some first, ready⟩)
  | idelAgent => exact (compareAgents_ready found).imp_right entries
  | leastTalkTime => exact (compareAgents_ready found).imp_right entries
  | fewestCalls => exact (compareAgents_ready found).imp_right entries

/-! ## The ACD thread -/

/-- The agent the ACD thread holds between `GetavailableAgent` and `inline_TransformAgent`. -/
def selectedDN : AcdThread → Option String
  | .selected _ dn => some dn
  | _ => none

theorem selectedDN_eq_some {thread : AcdThread} {dn : String} (chosen : selectedDN thread = some dn) :
    ∃ session, thread = .selected session dn := by
  cases thread with
  | selected session selected => exact ⟨session, by rw [Option.some.inj chosen]⟩
  | _ => contradiction

/-- What `GetavailableAgent` returns, where the action is its end. -/
def returned? (action : Action) (after : System) : Option String :=
  match action with
  | .acdScan _ | .acdWake _ => selectedDN after.acd
  | _ => none

/-- The agent waits for a call. -/
def isReady (dn : String) (manager : ManagerDN) : Bool :=
  manager.dnMap[dn]?.any fun user => user.agentstatus.value == AgentStatus.waitingReady.code

theorem isReady_of_readyFor {dn : String} {manager : ManagerDN} {user : DNuser} {companyid : Int}
    (present : manager.dnMap[dn]? = some user) (ready : user.readyFor companyid = true) :
    isReady dn manager = true := by
  simp only [DNuser.readyFor, Bool.and_eq_true] at ready
  simp only [isReady, present, Option.any_some, ready.2]

theorem selectedDN_afterPass (session : IvrSession) (picker : Picker) (ambient : Ambient)
    (manager : ManagerDN) :
    selectedDN (System.afterPass session picker ambient manager) =
      manager.pick picker session.companyid ambient := by
  unfold System.afterPass
  split <;> simp [selectedDN, *]

theorem isReady_of_pick {picker : Picker} {companyid : Int} {ambient : Ambient} {manager : ManagerDN}
    {dn : String} (found : manager.pick picker companyid ambient = some dn) (named : dn ≠ "") :
    isReady dn manager = true := by
  rcases pick_ready found with blank | ⟨user, present, ready⟩
  · exact absurd blank named
  · exact isReady_of_readyFor present ready

/-- Whom `GetavailableAgent` returns is ready at that moment. -/
theorem ready_of_returned {lib : Libraries} {before after : System} {action : Action} {dn : String}
    (taken : before.step lib action = some after) (returned : returned? action after = some dn)
    (named : dn ≠ "") : isReady dn before.manager = true := by
  cases took_of_step taken <;> try contradiction
  case acdScan session ambient stands =>
    dsimp only [returned?, System.firstScan] at returned
    split at returned
    · rw [selectedDN_afterPass] at returned
      have ready := isReady_of_pick returned named
      exact ready
    · cases returned
      exact absurd rfl named
  case acdWake session picker ambient stands posted =>
    dsimp only [returned?] at returned
    rw [selectedDN_afterPass] at returned
    have ready := isReady_of_pick returned named
    exact ready

end CallCenter.Verified
