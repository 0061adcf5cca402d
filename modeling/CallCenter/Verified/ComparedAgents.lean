import CallCenter.Foundation.Scan
import CallCenter.Verified.AvailableAgent

/-!
# Which agent a comparing picker chooses

A comparing picker is a pass over the agents in the order of their extensions.  The longest idle agent
is measured by what it is compared by, so the pass ends at the first of the greatest.  The pickers of
the least talk time and of the fewest calls remember the sign-in time instead, and end wherever the
chain of agents that beat it ends.
-/

namespace CallCenter.Verified.ComparedAgents

open Std (ExtTreeMap)
open CallCenter.Foundation CallCenter.Model

/-! ## Passes over the agents -/

/-- The extension of the one is before that of the other. -/
def before (first second : String × DNuser) : Prop := first.1 < second.1

theorem before_asymm (first second : String × DNuser) (less : before first second) : ¬ before second first :=
  lt_asymm (a := first.1) (b := second.1) less

theorem ordered (manager : ManagerDN) : manager.dnMap.toList.Pairwise before :=
  (ExtTreeMap.ordered_keys_toList (t := manager.dnMap)).imp fun less => compare_lt_iff_lt.mp less

section Pass

variable (companyid : Int) (improves : Int → DNuser → Bool) (measure : DNuser → Int)

/-- The pass of a comparing picker. -/
def agentPass : Pass (String × DNuser) Int where
  qualifies entry := entry.2.readyFor companyid
  improves best entry := improves best entry.2
  measure entry := measure entry.2

variable {companyid improves measure}

/-- The locals of the picker hold the bound and the name the pass keeps. -/
theorem foldl_visit {agents : List (String × DNuser)} {choice : Choice} {kept : Int × Option (String × DNuser)}
    (bound : choice.maxidelminiute = kept.1) (name : choice.dn = (kept.2.map Prod.fst).getD "") :
    let final := agents.foldl (agentPass companyid improves measure).keep kept
    (agents.foldl (Choice.visit companyid improves measure) choice).maxidelminiute = final.1 ∧
      (agents.foldl (Choice.visit companyid improves measure) choice).dn = (final.2.map Prod.fst).getD "" := by
  induction agents generalizing choice kept with
  | nil => exact ⟨bound, name⟩
  | cons entry agents inductionHypothesis =>
    refine inductionHypothesis ?_ ?_
    · simp only [Choice.visit, Pass.keep, agentPass, ← bound]
      cases entry.2.readyFor companyid <;> cases improves choice.maxidelminiute entry.2 <;> simp [bound]
    · simp only [Choice.visit, Pass.keep, agentPass, ← bound]
      cases entry.2.readyFor companyid <;> cases improves choice.maxidelminiute entry.2 <;> simp [name]

/-- A pass over the agents that finds someone returns the end of its chain, or the empty name when no
ready agent improves on the start. -/
theorem compareAgents_keeps {start : Int} {manager : ManagerDN} (someone : SomeoneReady companyid manager) :
    let pass := agentPass companyid improves measure
    let entries := manager.dnMap.toList
    (compareAgents companyid start improves measure entries = some "" ∧
        ∀ other ∈ entries, pass.qualifies other = true → pass.improves start other = false) ∨
      ∃ final, pass.Reaches entries before start final ∧ pass.Settles entries before final ∧
        compareAgents companyid start improves measure entries = some final.1 := by
  intro pass entries
  have isFind : (entries.foldl (Choice.visit companyid improves measure)
      { maxidelminiute := start }).isFind = true := by
    obtain ⟨dn, user, present, ready⟩ := someone
    rw [isFind_foldl, Bool.false_or, List.any_eq_true]
    exact ⟨(dn, user), OrderedMap.mem_toList_iff.mpr present, ready⟩
  have locals := @foldl_visit companyid improves measure entries { maxidelminiute := start }
      (start, none) rfl rfl
  have result : compareAgents companyid start improves measure entries =
      some (entries.foldl (Choice.visit companyid improves measure) { maxidelminiute := start }).dn := by
    rw [compareAgents]
    exact if_pos isFind
  rw [result, locals.2]
  rcases pass.foldl_keep before_asymm (ordered manager) start with ⟨kept, nobody⟩ |
      ⟨final, reaches, settles, kept⟩
  · exact .inl ⟨by rw [kept]; rfl, nobody⟩
  · exact .inr ⟨final, reaches, settles, by rw [kept]; rfl⟩

end Pass

/-! ## Passes that find nobody -/

section Loop

variable {companyid : Int} {improves : Int → Int → DNuser → Bool} {measure : Int → DNuser → Int}

theorem foldl_visit_nobody {now : Int} {agents : List (String × DNuser)} (choice : Choice)
    (nobody : ∀ entry ∈ agents, entry.2.readyFor companyid = false) :
    agents.foldl (Choice.visit companyid (improves now) (measure now)) choice = choice := by
  induction agents with
  | nil => rfl
  | cons entry agents inductionHypothesis =>
    obtain ⟨notReady, others⟩ := List.forall_mem_cons.mp nobody
    rw [List.foldl_cons, visit_of_not_ready notReady]
    exact inductionHypothesis others

/-- A pass that finds nobody leaves the locals as they are, so the loop returns what its first pass
that finds someone would return alone. -/
theorem compareLoop_eq_findSome (start : Int) (passes : List (Int × List (String × DNuser))) :
    compareLoop companyid improves measure { maxidelminiute := start } passes =
      passes.findSome? fun pass => compareAgents companyid start (improves pass.1) (measure pass.1) pass.2 := by
  induction passes with
  | nil => rfl
  | cons pass passes inductionHypothesis =>
    obtain ⟨now, agents⟩ := pass
    rw [compareLoop, List.findSome?_cons]
    cases found : compareAgents companyid start (improves now) (measure now) agents with
    | none =>
      have unchanged := @foldl_visit_nobody companyid improves measure now agents { maxidelminiute := start }
        (compareAgents_eq_none_iff.mp found)
      simp only [unchanged]
      exact inductionHypothesis
    | some dn =>
      simp only [compareAgents, Option.ite_none_right_eq_some, Option.some.injEq] at found
      simp only [found.1, found.2, if_true]

end Loop

/-! ## The longest idle agent -/

/-- The time since sign-in without the time on calls; `Getidelminiute` makes an `int` of it. -/
def idleTime (now : Int) (user : DNuser) : Int := now - user.idelminiutes.value - user.callminiutes.value

/-- The agent is ready, idle at least as long as any ready agent of the company, and the first of
those idle as long. -/
structure LongestIdle (idle : DNuser → Int) (companyid : Int) (manager : ManagerDN) (dn : String) (user : DNuser) :
    Prop where
  present : manager.dnMap[dn]? = some user
  ready : user.readyFor companyid = true
  longest : ∀ (other : String) (otherUser : DNuser), manager.dnMap[other]? = some otherUser →
    otherUser.readyFor companyid = true → idle otherUser ≤ idle user
  first : ∀ (other : String) (otherUser : DNuser), manager.dnMap[other]? = some otherUser →
    otherUser.readyFor companyid = true → idle otherUser = idle user → dn ≤ other

theorem LongestIdle.unique {idle : DNuser → Int} {companyid : Int} {manager : ManagerDN} {one other : String}
    {oneUser otherUser : DNuser} (isOne : LongestIdle idle companyid manager one oneUser)
    (isOther : LongestIdle idle companyid manager other otherUser) : one = other := by
  have same : idle oneUser = idle otherUser :=
    le_antisymm (isOther.longest one oneUser isOne.present isOne.ready)
      (isOne.longest other otherUser isOther.present isOther.ready)
  exact le_antisymm (isOne.first other otherUser isOther.present isOther.ready same.symm)
    (isOther.first one oneUser isOne.present isOne.ready same)

/-- A pass returns the agent with the greatest `Getidelminiute`, when one is above 0, and else the empty
name. -/
theorem getAgentIdelAgent_eq {companyid : Int} (now : Int) {manager : ManagerDN}
    (someone : SomeoneReady companyid manager) :
    (manager.getAgentIdelAgent companyid now = some "" ∧
      ∀ (dn : String) (user : DNuser), manager.dnMap[dn]? = some user → user.readyFor companyid = true →
        user.getidelminiute now ≤ 0) ∨
    ∃ dn user, manager.getAgentIdelAgent companyid now = some dn ∧ 0 < user.getidelminiute now ∧
      LongestIdle (DNuser.getidelminiute now) companyid manager dn user := by
  have kept := @compareAgents_keeps companyid (fun best user => best < user.getidelminiute now)
    (fun user => user.getidelminiute now) 0 manager someone
  rcases kept with ⟨blank, nobody⟩ | ⟨final, reaches, settles, result⟩
  · refine .inl ⟨blank, fun dn user present ready => ?_⟩
    have worse := nobody (dn, user) (OrderedMap.mem_toList_iff.mpr present) ready
    exact not_lt.mp (of_decide_eq_false worse)
  · have compares : ∀ bound entry, (agentPass companyid (fun best user => best < user.getidelminiute now)
        fun user => user.getidelminiute now).improves bound entry = true ↔
        bound < (agentPass companyid (fun best user => best < user.getidelminiute now)
          fun user => user.getidelminiute now).measure entry := fun _ _ => decide_eq_true_iff
    obtain ⟨member, qualifies, positive, _⟩ := reaches.less (ordered manager) compares
    refine .inr ⟨final.1, final.2, result, positive, OrderedMap.mem_toList_iff.mp member, qualifies, ?_, ?_⟩
    · intro other otherUser otherPresent otherReady
      exact (reaches.greatest (ordered manager) compares settles
        (OrderedMap.mem_toList_iff.mpr otherPresent) otherReady).1
    · intro other otherUser otherPresent otherReady same
      have place := (reaches.greatest (ordered manager) compares settles
        (OrderedMap.mem_toList_iff.mpr otherPresent) otherReady).2 same
      rcases place with rfl | behind
      · exact le_refl other
      · exact le_of_lt behind

/-- The pick is the longest idle agent. -/
def PicksLongest (companyid now : Int) (manager : ManagerDN) (pick : Option String) : Prop :=
  ∃ dn user, pick = some dn ∧ LongestIdle (idleTime now) companyid manager dn user

/-- The longest idle agent is also the one with the greatest `Getidelminiute`, and that is above 0.  (An
agent without a name is picked where no ready agent's is.) -/
def LeadsAsInt (companyid now : Int) (manager : ManagerDN) : Prop :=
  ∃ dn user, LongestIdle (idleTime now) companyid manager dn user ∧
    (0 < user.getidelminiute now ∧ LongestIdle (DNuser.getidelminiute now) companyid manager dn user ∨
      dn = "" ∧ ∀ (other : String) (otherUser : DNuser), manager.dnMap[other]? = some otherUser →
        otherUser.readyFor companyid = true → otherUser.getidelminiute now ≤ 0)

theorem picksLongest_iff {companyid : Int} (now : Int) {manager : ManagerDN}
    (someone : SomeoneReady companyid manager) :
    PicksLongest companyid now manager (manager.getAgentIdelAgent companyid now) ↔
      LeadsAsInt companyid now manager := by
  rcases getAgentIdelAgent_eq now someone with ⟨blank, nobody⟩ | ⟨dn, user, picked, positive, greatest⟩
  · rw [blank]
    constructor
    · rintro ⟨dn, user, same, longest⟩
      obtain rfl := Option.some.inj same
      exact ⟨"", user, longest, .inr ⟨rfl, nobody⟩⟩
    · rintro ⟨dn, user, longest, ⟨positive, _⟩ | ⟨rfl, _⟩⟩
      · exact absurd (nobody dn user longest.present longest.ready) (not_le.mpr positive)
      · exact ⟨"", user, rfl, longest⟩
  · rw [picked]
    constructor
    · rintro ⟨other, otherUser, same, longest⟩
      obtain rfl := Option.some.inj same
      obtain rfl := Option.some.inj (greatest.present.symm.trans longest.present)
      exact ⟨dn, user, longest, .inl ⟨positive, greatest⟩⟩
    · rintro ⟨other, otherUser, longest, ⟨_, isGreatest⟩ | ⟨_, nobody⟩⟩
      · exact ⟨other, otherUser, by rw [isGreatest.unique greatest], longest⟩
      · exact absurd (nobody dn user greatest.present greatest.ready) (not_le.mpr positive)

/-- Where every idle time is an `int`, `Getidelminiute` is the idle time. -/
theorem leadsAsInt_of_fits {companyid now : Int} {manager : ManagerDN}
    (someone : ∃ (dn : String) (user : DNuser), manager.dnMap[dn]? = some user ∧
      user.readyFor companyid = true ∧ 0 < idleTime now user)
    (fits : ∀ (dn : String) (user : DNuser), manager.dnMap[dn]? = some user → user.readyFor companyid = true →
      -2 ^ 31 ≤ idleTime now user ∧ idleTime now user < 2 ^ 31) : LeadsAsInt companyid now manager := by
  have same : ∀ (dn : String) (user : DNuser), manager.dnMap[dn]? = some user →
      user.readyFor companyid = true → user.getidelminiute now = idleTime now user := fun dn user present ready =>
    Numerals.toInt32_of_fits (fits dn user present ready).1 (fits dn user present ready).2
  obtain ⟨some', someUser, present, ready, positive⟩ := someone
  rcases getAgentIdelAgent_eq now ⟨some', someUser, present, ready⟩ with
    ⟨_, nobody⟩ | ⟨dn, user, _, above, greatest⟩
  · rw [← same some' someUser present ready] at positive
    exact absurd (nobody some' someUser present ready) (not_le.mpr positive)
  · refine ⟨dn, user, ⟨greatest.present, greatest.ready, ?_, ?_⟩, .inl ⟨above, greatest⟩⟩
    · intro other otherUser there isReady
      rw [← same other otherUser there isReady, ← same dn user greatest.present greatest.ready]
      exact greatest.longest other otherUser there isReady
    · intro other otherUser there isReady
      rw [← same other otherUser there isReady, ← same dn user greatest.present greatest.ready]
      exact greatest.first other otherUser there isReady

/-- The loop returns what its first pass that finds a ready agent would return alone. -/
theorem getAgentIdelAgentLoop_eq {companyid now : Int} {failed later : List (Int × ManagerDN)}
    {manager : ManagerDN} (unsuccessful : ∀ pass ∈ failed, ¬ SomeoneReady companyid pass.2)
    (someone : SomeoneReady companyid manager) :
    ManagerDN.getAgentIdelAgentLoop companyid (failed ++ (now, manager) :: later) =
      manager.getAgentIdelAgent companyid now := by
  rw [ManagerDN.getAgentIdelAgentLoop, compareLoop_eq_findSome, List.map_append, List.findSome?_append]
  have none : (failed.map fun pass => (pass.1, pass.2.dnMap.toList)).findSome? (fun pass =>
      compareAgents companyid 0 (fun best user => best < user.getidelminiute pass.1)
        (fun user => user.getidelminiute pass.1) pass.2) = none := by
    simp only [List.findSome?_map, List.findSome?_eq_none_iff, Function.comp_apply]
    intro pass member
    refine compareAgents_eq_none_iff.mpr fun entry inMap => ?_
    rw [← Bool.not_eq_true]
    exact fun ready => unsuccessful pass member ⟨entry.1, entry.2, OrderedMap.mem_toList_iff.mp inMap, ready⟩
  obtain ⟨dn, result⟩ : ∃ dn, manager.getAgentIdelAgent companyid now = some dn := by
    rcases getAgentIdelAgent_eq now someone with ⟨blank, _⟩ | ⟨dn, _, picked, _⟩
    · exact ⟨"", blank⟩
    · exact ⟨dn, picked⟩
  have found : compareAgents companyid 0 (fun best user => best < user.getidelminiute now)
      (fun user => user.getidelminiute now) manager.dnMap.toList = some dn := result
  rw [none, Option.none_or, List.map_cons, List.findSome?_cons, found, result]

/-- Whatever the passes before it met, the first pass that finds a ready agent returns the longest idle
one exactly when that agent also leads by `Getidelminiute`: so whenever all idle times are values
of `int`. -/
theorem getAgentIdelAgentLoop_longest {companyid now : Int} {failed later : List (Int × ManagerDN)}
    {manager : ManagerDN} (unsuccessful : ∀ pass ∈ failed, ¬ SomeoneReady companyid pass.2)
    (someone : ∃ (dn : String) (user : DNuser), manager.dnMap[dn]? = some user ∧
      user.readyFor companyid = true ∧ 0 < idleTime now user) :
    (PicksLongest companyid now manager
        (ManagerDN.getAgentIdelAgentLoop companyid (failed ++ (now, manager) :: later)) ↔
      LeadsAsInt companyid now manager) ∧
    ((∀ (dn : String) (user : DNuser), manager.dnMap[dn]? = some user → user.readyFor companyid = true →
        -2 ^ 31 ≤ idleTime now user ∧ idleTime now user < 2 ^ 31) → LeadsAsInt companyid now manager) := by
  have isReady : SomeoneReady companyid manager := by
    obtain ⟨dn, user, present, ready, _⟩ := someone
    exact ⟨dn, user, present, ready⟩
  rw [getAgentIdelAgentLoop_eq unsuccessful isReady]
  exact ⟨picksLongest_iff now isReady, leadsAsInt_of_fits someone⟩

/-- An agent of company 1 who is ready, with the talk time, the calls and the sign-in time given. -/
def readyAgent (callminiutes calltimes idelminiutes : Int) : DNuser :=
  { newAgent with
    callminiutes := .assign callminiutes
    calltimes := .assign calltimes
    idelminiutes := .assign idelminiutes }

def twoAgents (first second : DNuser) : ManagerDN :=
  { dnMap := ((∅ : ExtTreeMap String DNuser).insert "1001" first).insert "1002" second }

theorem nobody_in_empty (now : Int) (companyid : Int) :
    ∀ pass ∈ [(now, ({} : ManagerDN))], ¬ SomeoneReady companyid pass.2 := by
  rintro pass member ⟨dn, user, present, _⟩
  rw [List.mem_singleton.mp member] at present
  cases (ExtTreeMap.getElem?_empty (a := dn)).symm.trans present

/-- Both agents have been idle for a minute when the second pass finds them. -/
theorem getAgentIdelAgentLoop_first_of_equals :
    (PicksLongest 1 1557230400 (twoAgents (readyAgent 0 0 1557230340) (readyAgent 20 1 1557230320))
        (ManagerDN.getAgentIdelAgentLoop 1 [(1557230399, {}),
          (1557230400, twoAgents (readyAgent 0 0 1557230340) (readyAgent 20 1 1557230320))]) ↔
      LeadsAsInt 1 1557230400 (twoAgents (readyAgent 0 0 1557230340) (readyAgent 20 1 1557230320))) ∧
    ((∀ (dn : String) (user : DNuser),
        (twoAgents (readyAgent 0 0 1557230340) (readyAgent 20 1 1557230320)).dnMap[dn]? = some user →
        user.readyFor 1 = true → -2 ^ 31 ≤ idleTime 1557230400 user ∧ idleTime 1557230400 user < 2 ^ 31) →
      LeadsAsInt 1 1557230400 (twoAgents (readyAgent 0 0 1557230340) (readyAgent 20 1 1557230320))) :=
  @getAgentIdelAgentLoop_longest 1 1557230400 [(1557230399, {})] [] _ (nobody_in_empty 1557230399 1)
    ⟨"1001", readyAgent 0 0 1557230340, by decide +kernel, by decide +kernel, by decide +kernel⟩

/-- A restored agent, whose times are what was found in their storage. -/
def restoredAgent : DNuser :=
  { newAgent with
    calltimes := .indeterminate 0
    callminiutes := .indeterminate 0
    idelminiutes := .indeterminate (-2000000000) }

/-- The restored agent has been idle longest, but its idle time is no `int`; the other is picked. -/
theorem restored_agent_passed_by :
    ¬ ∀ (companyid now : Int) (manager : ManagerDN) (failed later : List (Int × ManagerDN)),
      (∀ pass ∈ failed, ¬ SomeoneReady companyid pass.2) →
      (∃ (dn : String) (user : DNuser), manager.dnMap[dn]? = some user ∧ user.readyFor companyid = true ∧
        0 < idleTime now user) →
      PicksLongest companyid now manager
        (ManagerDN.getAgentIdelAgentLoop companyid (failed ++ (now, manager) :: later)) := by
  intro picks
  let manager := twoAgents restoredAgent (readyAgent 0 0 1557230340)
  have front : manager.dnMap["1001"]? = some restoredAgent := by decide +kernel
  have behind : manager.dnMap["1002"]? = some (readyAgent 0 0 1557230340) := by decide +kernel
  obtain ⟨dn, user, picked, longest⟩ := picks 1 1557230400 manager [] [] (fun _ member => nomatch member)
    ⟨"1002", _, behind, rfl, by decide⟩
  have other : ManagerDN.getAgentIdelAgentLoop 1 [(1557230400, manager)] = some "1002" := by decide +kernel
  obtain rfl := Option.some.inj (other.symm.trans picked)
  obtain rfl := Option.some.inj (behind.symm.trans longest.present)
  exact absurd (longest.longest "1001" _ front rfl) (by decide)

/-! ## The least talk time and the fewest calls -/

/-- The pass of a picker that compares a count and remembers the sign-in time. -/
def countPass (companyid : Int) (count : DNuser → Int) : Pass (String × DNuser) Int :=
  agentPass companyid (fun best user => best > count user) fun user => user.idelminiutes.value

/-- The pick is a ready agent of the company, and no other has a smaller count. -/
def PicksLeast (count : DNuser → Int) (companyid : Int) (manager : ManagerDN) (pick : Option String) : Prop :=
  ∃ dn user, pick = some dn ∧ manager.dnMap[dn]? = some user ∧ user.readyFor companyid = true ∧
    ∀ (other : String) (otherUser : DNuser), manager.dnMap[other]? = some otherUser →
      otherUser.readyFor companyid = true → count user ≤ count otherUser

/-- The chain that starts with the first ready agent, and in which the next is the first behind whose
count is below the sign-in time of the one before, ends with a least count. -/
def EndsAtLeast (count : DNuser → Int) (companyid : Int) (manager : ManagerDN) : Prop :=
  ∃ final, (countPass companyid count).Reaches manager.dnMap.toList before 999999 final ∧
    (countPass companyid count).Settles manager.dnMap.toList before final ∧
    ∀ (other : String) (otherUser : DNuser), manager.dnMap[other]? = some otherUser →
      otherUser.readyFor companyid = true → count final.2 ≤ count otherUser

theorem compareAgents_least_iff {count : DNuser → Int} {companyid : Int} {manager : ManagerDN}
    (someone : SomeoneReady companyid manager)
    (counted : ∀ (dn : String) (user : DNuser), manager.dnMap[dn]? = some user →
      user.readyFor companyid = true →
      count user < 999999) :
    PicksLeast count companyid manager
        (compareAgents companyid 999999 (fun best user => best > count user)
          (fun user => user.idelminiutes.value)
          manager.dnMap.toList) ↔
      EndsAtLeast count companyid manager := by
  have kept := @compareAgents_keeps companyid (fun best user => best > count user)
    (fun user => user.idelminiutes.value) 999999 manager someone
  rcases kept with ⟨_, nobody⟩ | ⟨final, reaches, settles, result⟩
  · -- The first ready agent improves on the start.
    obtain ⟨dn, user, present, ready⟩ := someone
    have worse := nobody (dn, user) (OrderedMap.mem_toList_iff.mpr present) ready
    exact absurd (counted dn user present ready) (of_decide_eq_false worse)
  · have member := reaches.member
    have present : manager.dnMap[final.1]? = some final.2 := OrderedMap.mem_toList_iff.mp member.1
    rw [result]
    constructor
    · rintro ⟨dn, user, same, isUser, _, least⟩
      obtain rfl := Option.some.inj same
      obtain rfl := Option.some.inj (present.symm.trans isUser)
      exact ⟨final, reaches, settles, least⟩
    · rintro ⟨other, otherReaches, otherSettles, least⟩
      obtain rfl := reaches.unique (ordered manager) settles otherReaches otherSettles
      exact ⟨final.1, final.2, rfl, present, member.2, least⟩

/-- The ready agent with the greatest extension has a least count. -/
def LastHasLeast (count : DNuser → Int) (companyid : Int) (manager : ManagerDN) : Prop :=
  ∃ last lastUser, manager.dnMap[last]? = some lastUser ∧ lastUser.readyFor companyid = true ∧
    ∀ (other : String) (otherUser : DNuser), manager.dnMap[other]? = some otherUser →
      otherUser.readyFor companyid = true → other ≤ last ∧ count lastUser ≤ count otherUser

/-- Where all agents signed in later than any count can be, everyone behind follows, and the pick is the
ready agent with the greatest extension. -/
theorem endsAtLeast_iff_last {count : DNuser → Int} {companyid : Int} {manager : ManagerDN}
    (counted : ∀ (dn : String) (user : DNuser), manager.dnMap[dn]? = some user →
      user.readyFor companyid = true →
      count user < 999999 ∧ 999999 ≤ user.idelminiutes.value) :
    EndsAtLeast count companyid manager ↔ LastHasLeast count companyid manager := by
  have improves : ∀ (bound : Int) (entry : String × DNuser), 999999 ≤ bound → entry ∈ manager.dnMap.toList →
      entry.2.readyFor companyid = true → (countPass companyid count).improves bound entry = true := by
    intro bound entry above member ready
    have below := (counted entry.1 entry.2 (OrderedMap.mem_toList_iff.mp member) ready).1
    exact decide_eq_true (lt_of_lt_of_le below above)
  have settles_iff : ∀ {final : String × DNuser}, final ∈ manager.dnMap.toList →
      final.2.readyFor companyid = true →
      ((countPass companyid count).Settles manager.dnMap.toList before final ↔
        ∀ entry ∈ manager.dnMap.toList, entry.2.readyFor companyid = true → ¬ before final entry) := by
    intro final member ready
    have late := (counted final.1 final.2 (OrderedMap.mem_toList_iff.mp member) ready).2
    constructor
    · intro settles entry inMap isReady behind
      have worse := settles entry inMap behind isReady
      exact absurd (worse.symm.trans (improves _ entry late inMap isReady)) (by decide)
    · intro last entry inMap behind isReady
      exact absurd behind (last entry inMap isReady)
  constructor
  · rintro ⟨final, reaches, settles, least⟩
    obtain ⟨member, ready⟩ := reaches.member
    refine ⟨final.1, final.2, OrderedMap.mem_toList_iff.mp member, ready,
      fun other otherUser present isReady => ?_⟩
    have notBehind := (settles_iff member ready).mp settles (other, otherUser)
        (OrderedMap.mem_toList_iff.mpr present) isReady
    exact ⟨not_lt.mp notBehind, least other otherUser present isReady⟩
  · rintro ⟨last, lastUser, present, ready, bounds⟩
    have kept := (countPass companyid count).foldl_keep before_asymm (ordered manager) 999999
    rcases kept with ⟨_, nobody⟩ | ⟨final, reaches, settles, _⟩
    · have member := OrderedMap.mem_toList_iff.mpr present
      exact absurd ((nobody _ member ready).symm.trans (improves _ _ (le_refl _) member ready)) (by decide)
    · obtain ⟨member, isReady⟩ := reaches.member
      have isFinal := OrderedMap.mem_toList_iff.mp member
      -- The end of the chain is no later than the last, and nobody is behind it.
      have notBehind := (settles_iff member isReady).mp settles (last, lastUser)
          (OrderedMap.mem_toList_iff.mpr present) ready
      have same : final.1 = last := le_antisymm (bounds final.1 final.2 isFinal isReady).1 (not_lt.mp notBehind)
      rw [same, present] at isFinal
      obtain rfl := Option.some.inj isFinal
      exact ⟨final, reaches, settles,
        fun other otherUser there otherReady => (bounds other otherUser there otherReady).2⟩

/-- Where someone is ready and the counts are below 999999, both pickers choose a least count exactly when
the ready agent with the greatest extension has one, if every sign-in time is at least 999999; and
for any sign-in times, when the chain of the agents they record ends with one. -/
theorem picksLeast_iff {companyid : Int} {manager : ManagerDN} (someone : SomeoneReady companyid manager)
    (counted : ∀ (dn : String) (user : DNuser), manager.dnMap[dn]? = some user →
      user.readyFor companyid = true →
      user.callminiutes.value < 999999 ∧ user.calltimes.value < 999999) :
    ((∀ (dn : String) (user : DNuser), manager.dnMap[dn]? = some user → user.readyFor companyid = true →
        999999 ≤ user.idelminiutes.value) →
      (PicksLeast (fun user => user.callminiutes.value) companyid manager
        (manager.getAgentLeastTalkTime companyid) ↔
          LastHasLeast (fun user => user.callminiutes.value) companyid manager) ∧
      (PicksLeast (fun user => user.calltimes.value) companyid manager (manager.getAgentFewestCalls companyid) ↔
        LastHasLeast (fun user => user.calltimes.value) companyid manager)) ∧
    (PicksLeast (fun user => user.callminiutes.value) companyid manager
      (manager.getAgentLeastTalkTime companyid) ↔
        EndsAtLeast (fun user => user.callminiutes.value) companyid manager) ∧
      (PicksLeast (fun user => user.calltimes.value) companyid manager (manager.getAgentFewestCalls companyid) ↔
        EndsAtLeast (fun user => user.calltimes.value) companyid manager) := by
  have talk := compareAgents_least_iff someone fun dn user present ready => (counted dn user present ready).1
  have calls := compareAgents_least_iff someone fun dn user present ready => (counted dn user present ready).2
  refine ⟨fun late => ⟨talk.trans (endsAtLeast_iff_last ?_), calls.trans (endsAtLeast_iff_last ?_)⟩, talk, calls⟩
  · exact fun dn user present ready => ⟨(counted dn user present ready).1, late dn user present ready⟩
  · exact fun dn user present ready => ⟨(counted dn user present ready).2, late dn user present ready⟩

theorem someoneReady_twoAgents {first second : DNuser} (ready : first.readyFor 1 = true) :
    SomeoneReady 1 (twoAgents first second) := by
  refine ⟨"1001", first, ?_, ready⟩
  simp only [twoAgents]
  rw [ExtTreeMap.getElem?_insert, ExtTreeMap.getElem?_insert, if_neg (by decide +kernel),
    if_pos (by decide +kernel)]

theorem counted_twoAgents {first second : DNuser} {counts : DNuser → Prop} (one : counts first)
    (other : counts second) (dn : String) (user : DNuser)
    (present : (twoAgents first second).dnMap[dn]? = some user) : counts user := by
  simp only [twoAgents, ExtTreeMap.getElem?_insert] at present
  split at present
  · cases present
    exact other
  · split at present
    · cases present
      exact one
    · simp at present

/-- The agent behind has talked less and had fewer calls. -/
theorem picksLeast_iff_twoAgents :
    PicksLeast (fun user => user.callminiutes.value) 1
      (twoAgents (readyAgent 300 4 1557230340) (readyAgent 60 1 1557230320))
        ((twoAgents (readyAgent 300 4 1557230340) (readyAgent 60 1 1557230320)).getAgentLeastTalkTime 1) ↔
      LastHasLeast (fun user => user.callminiutes.value) 1
        (twoAgents (readyAgent 300 4 1557230340) (readyAgent 60 1 1557230320)) := by
  have someone := @someoneReady_twoAgents (readyAgent 300 4 1557230340) (readyAgent 60 1 1557230320) rfl
  refine ((picksLeast_iff someone fun dn user present _ => ?_).1 fun dn user present _ => ?_).1
  · exact @counted_twoAgents _ _ (fun user => user.callminiutes.value < 999999 ∧ user.calltimes.value < 999999)
      (by decide) (by decide) dn user present
  · exact @counted_twoAgents _ _ (fun user => 999999 ≤ user.idelminiutes.value) (by decide) (by decide) dn user
      present

/-- The agent in front has talked least and had fewest calls, and is not chosen. -/
theorem greatest_count_picked :
    let manager := twoAgents (readyAgent 60 1 1557230340) (readyAgent 300 4 1557230320)
    SomeoneReady 1 manager ∧
      (∀ (dn : String) (user : DNuser), manager.dnMap[dn]? = some user → user.readyFor 1 = true →
        (0 ≤ user.callminiutes.value ∧ user.callminiutes.value < 999999) ∧
          0 ≤ user.calltimes.value ∧ user.calltimes.value < 999999) ∧
      ¬ PicksLeast (fun user => user.callminiutes.value) 1 manager (manager.getAgentLeastTalkTime 1) ∧
      ¬ PicksLeast (fun user => user.calltimes.value) 1 manager (manager.getAgentFewestCalls 1) := by
  intro manager
  have front : manager.dnMap["1001"]? = some (readyAgent 60 1 1557230340) := by decide +kernel
  have behind : manager.dnMap["1002"]? = some (readyAgent 300 4 1557230320) := by decide +kernel
  refine ⟨someoneReady_twoAgents rfl, fun dn user present _ => ?_, ?_, ?_⟩
  · exact @counted_twoAgents _ _ (fun user => (0 ≤ user.callminiutes.value ∧ user.callminiutes.value < 999999) ∧
      0 ≤ user.calltimes.value ∧ user.calltimes.value < 999999) (by decide) (by decide) dn user present
  · rintro ⟨dn, user, picked, present, _, least⟩
    have last : manager.getAgentLeastTalkTime 1 = some "1002" := by decide +kernel
    obtain rfl := Option.some.inj (last.symm.trans picked)
    obtain rfl := Option.some.inj (behind.symm.trans present)
    exact absurd (least "1001" _ front rfl) (by decide)
  · rintro ⟨dn, user, picked, present, _, least⟩
    have last : manager.getAgentFewestCalls 1 = some "1002" := by decide +kernel
    obtain rfl := Option.some.inj (last.symm.trans picked)
    obtain rfl := Option.some.inj (behind.symm.trans present)
    exact absurd (least "1001" _ front rfl) (by decide)

end CallCenter.Verified.ComparedAgents
