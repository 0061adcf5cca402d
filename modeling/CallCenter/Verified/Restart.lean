import CallCenter.Model.Dispatch
import CallCenter.Verified.Mirror

/-!
# What a restart keeps of the agents

`serialize` writes ten of the members, and the consumers of an agent read others: the department
filters the lists, the counters drive the pickers.  Those come back as the constructor left them, so
an agent survives a restart exactly if it never differed from a default-constructed one there
(`restart_preserves_iff`).
-/

namespace CallCenter.Verified

open Std (ExtTreeMap LawfulEqOrd)
open CallCenter.Foundation CallCenter.Model

/-! ## What is read of an agent -/

/-- The agent as its readers see it: they do not see whether a member was ever assigned. -/
def asRead (user : DNuser) : DNuser :=
  { user with
    commpanyid   := .assign user.commpanyid.value
    agentstatus  := .assign user.agentstatus.value
    autoAnswer   := .assign user.autoAnswer.value
    fcSignin     := .assign user.fcSignin.value
    departmentId := .assign user.departmentId.value
    calltimes    := .assign user.calltimes.value
    callminiutes := .assign user.callminiutes.value
    idelminiutes := .assign user.idelminiutes.value }

/-- Every member reads the same. -/
def Agrees (first second : DNuser) : Prop := asRead first = asRead second

/-- The members that `serialize` leaves out are those of a default-constructed agent. -/
structure LeavesOutNothing (ambient : Ambient) (user : DNuser) : Prop where
  departmentId : user.departmentId.value = ambient.junk "m_department_id"
  departmentName : user.departmentName = ""
  userName : user.userName = ""
  calltimes : user.calltimes.value = ambient.junk "m_calltimes"
  callminiutes : user.callminiutes.value = ambient.junk "m_callminiutes"
  idelminiutes : user.idelminiutes.value = ambient.junk "m_idelminiutes"

theorem agrees_unserialized_iff {ambient : Ambient} {user : DNuser} :
    Agrees (unserialized ambient user) user ↔ LeavesOutNothing ambient user := by
  simp only [Agrees, asRead, unserialized, DNuser.default, DNuser.mk.injEq, Cell.assign,
    Cell.indeterminate, Cell.mk.injEq, true_and, and_true]
  constructor
  · rintro ⟨departmentId, departmentName, userName, calltimes, callminiutes, idelminiutes⟩
    exact ⟨departmentId.symm, departmentName.symm, userName.symm, calltimes.symm, callminiutes.symm,
      idelminiutes.symm⟩
  · rintro ⟨departmentId, departmentName, userName, calltimes, callminiutes, idelminiutes⟩
    exact ⟨departmentId.symm, departmentName.symm, userName.symm, calltimes.symm, callminiutes.symm,
      idelminiutes.symm⟩

/-- The status `LoadDNSet` stores is the one a ready agent has. -/
theorem agrees_restored {ambient : Ambient} {user : DNuser} (leavesOut : LeavesOutNothing ambient user)
    (ready : user.agentstatus.value = AgentStatus.waitingReady.code) : Agrees (restored ambient user) user := by
  have codec := agrees_unserialized_iff.mpr leavesOut
  have status : asRead (restored ambient user) = asRead (unserialized ambient user) := by
    simp only [asRead, restored, unserialized, Cell.value_assign, ready]
  exact status.trans codec

/-! ## The consumers read no more than that -/

/-- The agents as their readers see them, in key order. -/
def agentsAsRead (manager : ManagerDN) : List (String × DNuser) :=
  manager.dnMap.toList.map fun entry => (entry.1, asRead entry.2)

theorem compareAgents_read (companyid start : Int) {improves : Int → DNuser → Bool} {measure : DNuser → Int}
    (improvesRead : ∀ best user, improves best (asRead user) = improves best user)
    (measureRead : ∀ user, measure (asRead user) = measure user) (agents : List (String × DNuser)) :
    compareAgents companyid start improves measure (agents.map fun entry => (entry.1, asRead entry.2)) =
      compareAgents companyid start improves measure agents := by
  have visits : (fun choice entry => Choice.visit companyid improves measure choice (entry.1, asRead entry.2)) =
      Choice.visit companyid improves measure := by
    funext choice entry
    simp only [Choice.visit, improvesRead, measureRead]
    rfl
  simp only [compareAgents, List.foldl_map, visits]

/-- A picker answers by what it reads of the agents. -/
theorem pick_reads {first second : ManagerDN} (same : agentsAsRead first = agentsAsRead second)
    (picker : Picker) (companyid : Int) (ambient : Ambient) :
    first.pick picker companyid ambient = second.pick picker companyid ambient := by
  have compared : ∀ {improves : Int → DNuser → Bool} {measure : DNuser → Int} (start : Int),
      (∀ best user, improves best (asRead user) = improves best user) →
      (∀ user, measure (asRead user) = measure user) →
      compareAgents companyid start improves measure first.dnMap.toList =
        compareAgents companyid start improves measure second.dnMap.toList := by
    intro improves measure start improvesRead measureRead
    rw [← compareAgents_read companyid start improvesRead measureRead first.dnMap.toList,
      ← compareAgents_read companyid start improvesRead measureRead second.dnMap.toList]
    exact congrArg _ same
  cases picker with
  | robin =>
    have robin : ∀ manager : ManagerDN, manager.getAgentRobin companyid =
        ((agentsAsRead manager).find? fun entry => entry.2.readyFor companyid).map Prod.fst := by
      intro manager
      rw [agentsAsRead, List.find?_map, Option.map_map]
      rfl
    show first.getAgentRobin companyid = second.getAgentRobin companyid
    rw [robin, robin, same]
  | idelAgent => exact compared 0 (fun _ _ => rfl) fun _ => rfl
  | leastTalkTime => exact compared 999999 (fun _ _ => rfl) fun _ => rfl
  | fewestCalls => exact compared 999999 (fun _ _ => rfl) fun _ => rfl

/-- The answers to a list of agents that read the same. -/
def SameAnswer (first second : ReturnStatus × List DNuser) : Prop :=
  first.1 = second.1 ∧ first.2.map asRead = second.2.map asRead

theorem getUserInfolist_reads {first second : ManagerDN} (same : agentsAsRead first = agentsAsRead second)
    (agentid departmentId status : String) :
    SameAnswer (first.getUserInfolist agentid departmentId status)
      (second.getUserInfolist agentid departmentId status) := by
  let chosen := fun user : DNuser => (departmentId == "" || user.departmentId.value == atoi departmentId) &&
    (status == "0" || user.agentstatus.value == atoi status)
  have listed : ∀ manager : ManagerDN, ((manager.dnMap.toList.map Prod.snd).filter chosen).map asRead =
      ((agentsAsRead manager).map Prod.snd).filter chosen := by
    intro manager
    have users : (agentsAsRead manager).map Prod.snd = (manager.dnMap.toList.map Prod.snd).map asRead := by
      rw [agentsAsRead, List.map_map, List.map_map]
      rfl
    have sameChoice : chosen ∘ asRead = chosen := rfl
    rw [users, List.filter_map (f := asRead), sameChoice]
  have named : ∀ manager : ManagerDN, agentid ∈ manager.dnMap ↔
      agentid ∈ (agentsAsRead manager).map Prod.fst := by
    intro manager
    rw [agentsAsRead, List.map_map, ← ExtTreeMap.mem_keys, ← ExtTreeMap.map_fst_toList_eq_keys]
    rfl
  unfold ManagerDN.getUserInfolist
  by_cases signedIn : agentid ∈ first.dnMap
  · have alsoThere : agentid ∈ second.dnMap := by rwa [named, ← same, ← named]
    rw [if_pos signedIn, if_pos alsoThere]
    refine ⟨rfl, ?_⟩
    show ((first.dnMap.toList.map Prod.snd).filter chosen).map asRead =
      ((second.dnMap.toList.map Prod.snd).filter chosen).map asRead
    rw [listed, listed, same]
  · have notThere : agentid ∉ second.dnMap := by rwa [named, ← same, ← named]
    rw [if_neg signedIn, if_neg notThere]
    exact ⟨rfl, rfl⟩

/-! ## The restart -/

/-- The agents are ready, and their members hold values of the type `int`. -/
def ReadyAgents (manager : ManagerDN) : Prop :=
  ∀ (dn : String) (user : DNuser), manager.dnMap[dn]? = some user →
    HoldsInts user ∧ user.agentstatus.value = AgentStatus.waitingReady.code

/-- The table holds the agents, each as it comes back: its status on disk may be an older one. -/
def Stored (lib : Libraries) (manager : ManagerDN) : Prop :=
  ∃ entries : List (String × DNuser), manager.presisted = some (entries.map (persisted lib)) ∧
    (∀ dn, dn ∈ entries.map Prod.fst ↔ dn ∈ manager.dnMap) ∧
    ∀ entry ∈ entries, HoldsInts entry.2 ∧
      ∀ user, manager.dnMap[entry.1]? = some user → ∀ ambient, restored ambient entry.2 = restored ambient user

/-- `LoadDNSet` in a fresh process restores every agent. -/
theorem loadDNSet_stored {lib : Libraries} (parsesBack : ParsesBack lib) {manager : ManagerDN}
    (stored : Stored lib manager) (ambient : Ambient) :
    ∃ restarted, ManagerDN.loadDNSet lib true ambient { presisted := manager.presisted } = .ok restarted ∧
      restarted.dnMap = manager.dnMap.map fun _ user => restored ambient user := by
  obtain ⟨entries, table, listed, current⟩ := stored
  have loaded := loadDNSet_persisted parsesBack.empty
    (fun entry member => ⟨readsBack parsesBack (current entry member).1, (current entry member).1⟩)
    (show ({ presisted := manager.presisted } : ManagerDN).presisted = _ from table) ambient
  refine ⟨_, loaded, ?_⟩
  apply ExtTreeMap.ext_getElem?
  intro dn
  rw [ExtTreeMap.getElem?_map]
  cases found : manager.dnMap[dn]? with
  | none =>
    have absent : dn ∉ entries.map Prod.fst := by simp [listed dn, ExtTreeMap.mem_iff_isSome_getElem?, found]
    apply ExtTreeMap.getElem?_eq_none
    rw [OrderedMap.mem_foldl_insert, not_or]
    exact ⟨absent, ExtTreeMap.not_mem_empty⟩
  | some user =>
    obtain ⟨entry, member, rfl⟩ := List.mem_map.mp ((listed dn).mpr (by
      simp [ExtTreeMap.mem_iff_isSome_getElem?, found]))
    have comesBack := (current entry member).2 user found ambient
    rw [Option.map_some, ← comesBack]
    refine OrderedMap.getElem?_foldl_insert_of_mem _ member fun other listedToo sameKey => ?_
    rw [comesBack]
    exact (current other listedToo).2 user (sameKey ▸ found) ambient

/-- Agents and answers are after a restart what they were before. -/
structure RestartPreserves (lib : Libraries) (ambient : Ambient) (manager : ManagerDN) : Prop where
  codec : ∀ (dn : String) (user : DNuser), manager.dnMap[dn]? = some user →
    ∃ back, (DNuser.default ambient).unserialize lib (user.serialize lib) = .ok back ∧ Agrees back user
  answers : ∃ restarted, ManagerDN.loadDNSet lib true ambient { presisted := manager.presisted } =
    .ok restarted ∧
    (∀ agentid departmentId status, SameAnswer (restarted.getUserInfolist agentid departmentId status)
      (manager.getUserInfolist agentid departmentId status)) ∧
    ∀ picker companyid now, restarted.pick picker companyid now = manager.pick picker companyid now

/-- A restart preserves ready agents exactly if `serialize` leaves nothing out of any of them. -/
theorem restart_preserves_iff {lib : Libraries} (parsesBack : ParsesBack lib) {manager : ManagerDN}
    (ready : ReadyAgents manager) (stored : Stored lib manager) (ambient : Ambient) :
    RestartPreserves lib ambient manager ↔
      ∀ (dn : String) (user : DNuser), manager.dnMap[dn]? = some user → LeavesOutNothing ambient user := by
  constructor
  · intro preserves dn user present
    obtain ⟨back, decoded, agrees⟩ := preserves.codec dn user present
    have ints := (ready dn user present).1
    obtain rfl := Except.ok.inj ((unserialize_serialize
        (readsBack parsesBack ints) ints ambient).symm.trans decoded)
    exact agrees_unserialized_iff.mp agrees
  · intro leavesOut
    constructor
    · intro dn user present
      have ints := (ready dn user present).1
      exact ⟨_, unserialize_serialize (readsBack parsesBack ints) ints ambient,
        agrees_unserialized_iff.mpr (leavesOut dn user present)⟩
    · obtain ⟨restarted, loaded, agents⟩ := loadDNSet_stored parsesBack stored ambient
      have same : agentsAsRead restarted = agentsAsRead manager := by
        rw [agentsAsRead, agentsAsRead, agents, ExtTreeMap.toList_map, List.map_map]
        refine List.map_congr_left fun entry member => ?_
        have present := OrderedMap.mem_toList_iff.mp member
        exact congrArg (Prod.mk entry.1)
          (agrees_restored (leavesOut entry.1 entry.2 present) (ready entry.1 entry.2 present).2)
      exact ⟨restarted, loaded, getUserInfolist_reads same, pick_reads same⟩

/-- One agent, and its row. -/
def oneAgent (lib : Libraries) (user : DNuser) : ManagerDN where
  dnMap := (∅ : ExtTreeMap String DNuser).insert user.dn user
  presisted := some [persisted lib (user.dn, user)]

theorem oneAgent_present {lib : Libraries} {user found : DNuser} {dn : String}
    (present : (oneAgent lib user).dnMap[dn]? = some found) : found = user := by
  simp only [oneAgent, ExtTreeMap.getElem?_insert] at present
  split at present
  · exact (Option.some.inj present).symm
  · simp at present

theorem oneAgent_stored {lib : Libraries} {user : DNuser} (ints : HoldsInts user) :
    Stored lib (oneAgent lib user) := by
  refine ⟨[(user.dn, user)], rfl, fun dn => ?_, fun entry member => ?_⟩
  · rw [oneAgent, ExtTreeMap.mem_insert, LawfulEqOrd.compare_eq_iff_eq]
    simp [eq_comm]
  · obtain rfl := List.mem_singleton.mp member
    exact ⟨ints, fun found present ambient => by rw [oneAgent_present present]⟩

theorem oneAgent_ready {lib : Libraries} {user : DNuser} (ints : HoldsInts user)
    (ready : user.agentstatus.value = AgentStatus.waitingReady.code) : ReadyAgents (oneAgent lib user) := by
  intro dn found present
  rw [oneAgent_present present]
  exact ⟨ints, ready⟩

/-- The agent a sign-in makes. -/
def signedInAgent : DNuser := (DNuser.construct quotedPassword noon).inlineSetcompanyid 1

theorem restart_preserves_iff_restored :
    RestartPreserves workingLibraries noon (oneAgent workingLibraries (restored noon signedInAgent)) ↔
      ∀ (dn : String) (user : DNuser),
        (oneAgent workingLibraries (restored noon signedInAgent)).dnMap[dn]? = some user →
          LeavesOutNothing noon user :=
  restart_preserves_iff workingLibraries_keepsCopies.toParsesBack (oneAgent_ready (by decide) rfl)
    (oneAgent_stored (by decide)) noon

/-- After a restart the department filter misses the agent. -/
theorem restart_loses_department :
    ¬ ∀ (lib : Libraries) (manager : ManagerDN) (ambient : Ambient), ParsesBack lib → ReadyAgents manager →
      Stored lib manager → RestartPreserves lib ambient manager := by
  intro preserves
  have parsesBack := workingLibraries_keepsCopies.toParsesBack
  have stored : Stored workingLibraries (oneAgent workingLibraries signedInAgent) := oneAgent_stored (by decide)
  obtain ⟨restarted, loaded, lists, _⟩ :=
    (preserves workingLibraries (oneAgent workingLibraries signedInAgent) noon parsesBack
      (oneAgent_ready (by decide) rfl) stored).answers
  obtain ⟨again, loadedAgain, agents⟩ := loadDNSet_stored parsesBack stored noon
  obtain rfl := Except.ok.inj (loadedAgain.symm.trans loaded)
  have before : ((oneAgent workingLibraries signedInAgent).getUserInfolist "1001" "1" "0").2 =
      [signedInAgent] := by
    decide +kernel
  have after : (again.getUserInfolist "1001" "1" "0").2 = [] := by
    rw [ManagerDN.getUserInfolist, agents]
    decide +kernel
  have same := congrArg List.length (lists "1001" "1" "0").2
  rw [before, after] at same
  simp at same

end CallCenter.Verified
