import CallCenter.Verified.Pickers

/-!
# Whom GetavailableAgent returns

A scan returns an agent that can be dispatched exactly when its rule is in the switch and, if
the company has a ready agent, the picker records one: the pickers that compare set their found
flag before they compare, and a key that was never recorded is the empty string.
-/

namespace CallCenter.Verified

open Std (ExtTreeMap)
open CallCenter.Foundation CallCenter.Model

/-- The key names an agent of the company that waits for a call. -/
def Dispatchable (companyid : Int) (manager : ManagerDN) (dn : String) : Prop :=
  dn ≠ "" ∧ ∃ user, manager.dnMap[dn]? = some user ∧ user.commpanyid.value = companyid ∧
    user.agentstatus.value = AgentStatus.waitingReady.code

/-- The company has an agent that waits for a call. -/
def SomeoneReady (companyid : Int) (manager : ManagerDN) : Prop :=
  ∃ (dn : String) (user : DNuser), manager.dnMap[dn]? = some user ∧ user.readyFor companyid = true

/-- What a scan owes its caller. -/
structure ScanServes (rule companyid : Int) (ambient : Ambient) (manager : ManagerDN) : Prop where
  dispatchable : ∀ dn, manager.scan rule companyid ambient = some dn → Dispatchable companyid manager dn
  returns : (∃ dn, Dispatchable companyid manager dn) → (manager.scan rule companyid ambient).isSome = true

theorem readyFor_iff {companyid : Int} {user : DNuser} : user.readyFor companyid = true ↔
    user.commpanyid.value = companyid ∧ user.agentstatus.value = AgentStatus.waitingReady.code := by
  simp only [DNuser.readyFor, Bool.and_eq_true, beq_iff_eq, @eq_comm _ companyid]

/-! ## What a comparing picker records -/

section Compare

variable (companyid start : Int) (improves : Int → DNuser → Bool) (measure : DNuser → Int)

/-- The bound of a comparing picker after the entry with the empty key, the first in the map. -/
def boundPastBlank (manager : ManagerDN) : Int :=
  match manager.dnMap[""]? with
  | some user => if user.readyFor companyid && improves start user then measure user else start
  | none => start

/-- A ready agent with a name improves on the bound it meets. -/
def Recorded (manager : ManagerDN) : Prop :=
  ∃ dn user, dn ≠ "" ∧ manager.dnMap[dn]? = some user ∧ user.readyFor companyid = true ∧
    improves (boundPastBlank companyid start improves measure manager) user = true

variable {companyid start : Int} {improves : Int → DNuser → Bool} {measure : DNuser → Int}

/-- Among agents with names the recorded name is empty when it was so before and nobody improves on
the bound, which no agent before the first that improves on it changes. -/
theorem dn_foldl_eq_blank_iff {agents : List (String × DNuser)} (named : ∀ entry ∈ agents, entry.1 ≠ "")
    (choice : Choice) :
    (agents.foldl (Choice.visit companyid improves measure) choice).dn = "" ↔
      choice.dn = "" ∧ ∀ entry ∈ agents, entry.2.readyFor companyid = true →
        improves choice.maxidelminiute entry.2 = false := by
  induction agents generalizing choice with
  | nil => simp
  | cons entry agents inductionHypothesis =>
    obtain ⟨entryNamed, othersNamed⟩ := List.forall_mem_cons.mp named
    rw [List.foldl_cons, inductionHypothesis othersNamed, List.forall_mem_cons]
    unfold Choice.visit
    split
    · rename_i ready
      split
      · rename_i better
        simp [entryNamed, ready, better]
      · rename_i worse
        simp [ready, worse]
    · rename_i notReady
      simp [notReady]

theorem not_below_blank (key : String) : compare key "" ≠ .lt := by
  intro below
  have less := String.lt_iff_toList_lt.mp (compare_lt_iff_lt.mp below)
  exact List.not_lt_nil _ less

/-- The pass over the map is one over the named agents that starts with the bound past the blank key. -/
theorem foldl_past_blank {manager : ManagerDN} : ∃ (choice : Choice) (agents : List (String × DNuser)),
    manager.dnMap.toList.foldl (Choice.visit companyid improves measure) { maxidelminiute := start } =
      agents.foldl (Choice.visit companyid improves measure) choice ∧
    choice.dn = "" ∧ choice.maxidelminiute = boundPastBlank companyid start improves measure manager ∧
    ∀ dn user, (dn, user) ∈ agents ↔ dn ≠ "" ∧ manager.dnMap[dn]? = some user := by
  cases blank : manager.dnMap[""]? with
  | none =>
    refine ⟨_, manager.dnMap.toList, rfl, rfl, by simp [boundPastBlank, blank], ?_⟩
    intro dn user
    rw [OrderedMap.mem_toList_iff]
    constructor
    · intro present
      refine ⟨?_, present⟩
      rintro rfl
      simp [blank] at present
    · exact fun ⟨_, present⟩ => present
  | some unnamed =>
    obtain ⟨agents, entries, named⟩ :=
      OrderedMap.toList_eq_cons_of_least not_below_blank (OrderedMap.mem_toList_iff.mpr blank)
    refine ⟨Choice.visit companyid improves measure { maxidelminiute := start } ("", unnamed), agents, ?_,
      ?_, ?_, ?_⟩
    · rw [entries, List.foldl_cons]
    · unfold Choice.visit
      split
      · split <;> rfl
      · rfl
    · simp only [Choice.visit, boundPastBlank, blank, Bool.and_eq_true]
      split
      · split <;> simp [*]
      · simp [*]
    · intro dn user
      rw [← OrderedMap.mem_toList_iff, entries, List.mem_cons]
      constructor
      · exact fun member => ⟨named _ member, .inr member⟩
      · rintro ⟨isNamed, same | member⟩
        · exact absurd (congrArg Prod.fst same) isNamed
        · exact member

/-- The name a pass ends with is empty exactly when it recorded no named agent. -/
theorem dn_foldl_map_eq_blank_iff {manager : ManagerDN} :
    (manager.dnMap.toList.foldl (Choice.visit companyid improves measure) { maxidelminiute := start }).dn = "" ↔
      ¬ Recorded companyid start improves measure manager := by
  obtain ⟨choice, agents, same, unnamed, bound, entries⟩ :=
    @foldl_past_blank companyid start improves measure manager
  have named : ∀ entry ∈ agents, entry.1 ≠ "" := fun entry member => ((entries entry.1 entry.2).mp member).1
  rw [same, dn_foldl_eq_blank_iff named, unnamed, bound]
  simp only [true_and, Recorded, not_exists, not_and, Bool.not_eq_true]
  constructor
  · intro nobody dn user isNamed present ready
    exact nobody (dn, user) ((entries dn user).mpr ⟨isNamed, present⟩) ready
  · intro nobody entry member ready
    obtain ⟨isNamed, present⟩ := (entries entry.1 entry.2).mp member
    exact nobody entry.1 entry.2 isNamed present ready

/-- A comparing pass returns a name exactly when nobody is ready or it recorded a named agent. -/
theorem compareAgents_named_iff {manager : ManagerDN} :
    (∀ dn, compareAgents companyid start improves measure manager.dnMap.toList = some dn → dn ≠ "") ↔
      (SomeoneReady companyid manager →
        Recorded companyid start improves measure manager) := by
  have found : (manager.dnMap.toList.foldl (Choice.visit companyid improves measure)
      { maxidelminiute := start }).isFind = true ↔
      SomeoneReady companyid manager := by
    simp [SomeoneReady, isFind_foldl]
  simp only [compareAgents, Option.ite_none_right_eq_some, Option.some.injEq, found]
  have blank := @dn_foldl_map_eq_blank_iff companyid start improves measure manager
  constructor
  · intro returned ready
    exact Classical.not_not.mp fun nobody => returned _ ⟨ready, rfl⟩ (blank.mpr nobody)
  · rintro recorded dn ⟨ready, rfl⟩ isBlank
    exact blank.mp isBlank (recorded ready)

end Compare

/-! ## The switch -/

/-- Whom the picker would record, by its own comparison. -/
def RecordsNamed (companyid now : Int) (manager : ManagerDN) : Picker → Prop
  | .robin => ∀ user, manager.dnMap[""]? = some user → user.readyFor companyid = false
  | .idelAgent => Recorded companyid 0 (fun best user => best < user.getidelminiute now)
      (fun user => user.getidelminiute now) manager
  | .leastTalkTime => Recorded companyid 999999 (fun best user => best > user.callminiutes.value)
      (fun user => user.idelminiutes.value) manager
  | .fewestCalls => Recorded companyid 999999 (fun best user => best > user.calltimes.value)
      (fun user => user.idelminiutes.value) manager

/-- The rule is one of the switch, and its picker records an agent if there is one to record. -/
def RuleSelects (rule companyid now : Int) (manager : ManagerDN) : Prop :=
  ∃ picker, Picker.ofRule rule = some picker ∧
    (SomeoneReady companyid manager →
      RecordsNamed companyid now manager picker)

theorem getAgentRobin_named_iff {companyid : Int} {manager : ManagerDN} :
    (∀ dn, manager.getAgentRobin companyid = some dn → dn ≠ "") ↔
      ∀ user, manager.dnMap[""]? = some user → user.readyFor companyid = false := by
  simp only [ManagerDN.getAgentRobin, Option.map_eq_some_iff]
  constructor
  · intro named user blank
    -- The blank key is the first in the map, so a ready agent there is the one that is found.
    obtain ⟨rest, entries, -⟩ :=
      OrderedMap.toList_eq_cons_of_least not_below_blank (OrderedMap.mem_toList_iff.mpr blank)
    refine Bool.eq_false_iff.mpr fun ready => named "" ⟨("", user), ?_, rfl⟩ rfl
    simp [entries, ready]
  · rintro notReady dn ⟨entry, found, rfl⟩ isBlank
    have present := OrderedMap.mem_toList_iff.mp (List.mem_of_find?_eq_some found)
    rw [isBlank] at present
    have ready := List.find?_some found
    exact Bool.false_ne_true ((notReady _ present).symm.trans ready)

/-- A pass returns no blank name exactly when nobody is ready or its picker records a named agent. -/
theorem pick_named_iff {picker : Picker} {companyid : Int} {ambient : Ambient} {manager : ManagerDN} :
    (∀ dn, manager.pick picker companyid ambient = some dn → dn ≠ "") ↔
      (SomeoneReady companyid manager →
        RecordsNamed companyid ambient.now manager picker) := by
  cases picker with
  | robin =>
    refine getAgentRobin_named_iff.trans ⟨fun notReady _ => notReady, ?_⟩
    intro notReady user blank
    refine Bool.eq_false_iff.mpr fun ready => ?_
    exact Bool.false_ne_true ((notReady ⟨"", user, blank, ready⟩ user blank).symm.trans ready)
  | idelAgent => exact compareAgents_named_iff
  | leastTalkTime => exact compareAgents_named_iff
  | fewestCalls => exact compareAgents_named_iff

theorem pick_isSome {picker : Picker} {companyid : Int} {ambient : Ambient} {manager : ManagerDN}
    {dn : String} (dispatchable : Dispatchable companyid manager dn) :
    (manager.pick picker companyid ambient).isSome = true := by
  obtain ⟨_, user, present, ready⟩ := dispatchable
  refine Option.isSome_iff_ne_none.mpr fun nobody => ?_
  have none := pick_eq_none_iff.mp nobody
  simp only [ManagerDN.getWaitingDN, List.countP_eq_zero] at none
  exact none (dn, user) (OrderedMap.mem_toList_iff.mpr present) (readyFor_iff.mpr ready)

/-- A scan serves its caller exactly when its rule is in the switch and, if someone of the company
is ready, the picker of the rule records a named agent. -/
theorem scanServes_iff (rule companyid : Int) (ambient : Ambient) (manager : ManagerDN) :
    ScanServes rule companyid ambient manager ↔ RuleSelects rule companyid ambient.now manager := by
  constructor
  · intro serves
    cases chosen : Picker.ofRule rule with
    | none =>
      have blank := serves.dispatchable "" (by simp [ManagerDN.scan, chosen])
      exact absurd rfl blank.1
    | some picker =>
      refine ⟨picker, chosen, pick_named_iff.mp fun dn found => ?_⟩
      exact (serves.dispatchable dn (by simp [ManagerDN.scan, chosen, found])).1
  · rintro ⟨picker, chosen, records⟩
    have pass : manager.scan rule companyid ambient = manager.pick picker companyid ambient := by
      simp [ManagerDN.scan, chosen]
    refine ⟨?dispatchable, ?returns⟩
    case dispatchable =>
      intro dn found
      rw [pass] at found
      have named := pick_named_iff.mpr records dn found
      rcases pick_ready found with blank | ⟨user, present, ready⟩
      · exact absurd blank named
      · exact ⟨named, user, present, readyFor_iff.mp ready⟩
    case returns =>
      rintro ⟨dn, dispatchable⟩
      rw [pass]
      exact pick_isSome dispatchable

/-! ## The ACD thread -/

/-- What the ACD thread holds after the first scan of a call. -/
theorem selectedDN_firstScan (session : IvrSession) (ambient : Ambient) (system : System) :
    selectedDN (system.firstScan session ambient).acd =
      system.manager.getavailableAgent session.companyid ambient := by
  simp only [System.firstScan, ManagerDN.getavailableAgent, ManagerDN.scan]
  cases Picker.ofRule (system.manager.adoptRule session.companyid).dnChooseRule with
  | none => rfl
  | some picker => exact selectedDN_afterPass session picker ambient _

/-- An agent of company 1 who signed in at noon. -/
def newAgent : DNuser :=
  DNuser.inlineSetcompanyid 1 <| DNuser.construct
    { agentId := "agent-1", agentDn := "1001", agentPwd := "",
      statusChangetype := AgentStatus.waitingReady.code,
      autoAnswer := false, fcSignin := false, skills := "", departmentId := 0, departmentName := "",
      userName := "", peerIP := "" }
    noon

/-- Under the rule of the longest idle agent a scan at noon finds that agent and returns no one. -/
theorem new_agent_not_returned :
    ¬ ∀ rule companyid ambient manager, ScanServes rule companyid ambient manager := by
  intro serves
  have scanned := serves 1 1 noon { dnMap := (∅ : ExtTreeMap String DNuser).insert "1001" newAgent }
  exact (scanned.dispatchable "" (by decide +kernel)).1 rfl

end CallCenter.Verified
