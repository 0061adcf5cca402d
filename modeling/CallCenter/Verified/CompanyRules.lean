import CallCenter.Verified.AvailableAgent

/-!
# The rule a company is served by

`GetavailableAgent` writes the rule of a company that has one into a variable it shares with every
other company, and reads the variable for a company that has none.  What such a company gets depends
on who was served before.
-/

namespace CallCenter.Verified.CompanyRules

open Std (ExtTreeMap)
open CallCenter.Foundation CallCenter.Model

/-- `DNRULE_select`. -/
def dnRuleSelect : Int := 2

/-- The calls of `GetavailableAgent` for these companies, one after another. -/
def afterCalls (companies : List Int) (manager : ManagerDN) : ManagerDN :=
  companies.foldl (fun manager companyid => manager.adoptRule companyid) manager

/-- The rule a call for the company goes by. -/
def ruleApplied (companyid : Int) (manager : ManagerDN) : Int := (manager.adoptRule companyid).dnChooseRule

/-- Whatever calls for other companies came before, the company is served by its own rule, and by the
same agent. -/
structure RuleIsOwn (companyid : Int) (manager : ManagerDN) : Prop where
  rule : ∀ calls, companyid ∉ calls →
    ruleApplied companyid (afterCalls calls manager) = manager.compyidDNrulemap[companyid]?.getD dnRuleSelect
  agent : ∀ first second, companyid ∉ first → companyid ∉ second → ∀ ambient,
    (afterCalls first manager).getavailableAgent companyid ambient =
      (afterCalls second manager).getavailableAgent companyid ambient

/-- Calls change nothing but the rule, which is that of the last company with a rule of its own. -/
theorem afterCalls_eq (companies : List Int) (manager : ManagerDN) :
    afterCalls companies manager =
      { manager with
        dnChooseRule :=
          (companies.filterMap fun companyid => manager.compyidDNrulemap[companyid]?).getLast?.getD
            manager.dnChooseRule } := by
  induction companies generalizing manager with
  | nil => rfl
  | cons companyid companies inductionHypothesis =>
    have step : afterCalls (companyid :: companies) manager =
        afterCalls companies (manager.adoptRule companyid) := rfl
    rw [step, inductionHypothesis, List.filterMap_cons]
    simp only [ManagerDN.adoptRule]
    cases manager.compyidDNrulemap[companyid]? with
    | none => rfl
    | some rule => simp [List.getLast?_cons]

theorem ruleApplied_afterCalls (companyid : Int) (calls : List Int) (manager : ManagerDN) :
    ruleApplied companyid (afterCalls calls manager) =
      manager.compyidDNrulemap[companyid]?.getD
        ((calls.filterMap fun other => manager.compyidDNrulemap[other]?).getLast?.getD manager.dnChooseRule) := by
  rw [ruleApplied, afterCalls_eq]
  rfl

/-- What a call returns depends on the history through the rule alone. -/
theorem getavailableAgent_afterCalls (companyid : Int) (calls : List Int) (ambient : Ambient)
    (manager : ManagerDN) :
    (afterCalls calls manager).getavailableAgent companyid ambient =
      manager.scan (ruleApplied companyid (afterCalls calls manager)) companyid ambient := by
  rw [ManagerDN.getavailableAgent, ruleApplied, afterCalls_eq]
  simp only [ManagerDN.scan, ManagerDN.adoptRule]
  cases Picker.ofRule _ with
  | none => rfl
  | some picker => cases picker <;> rfl

/-- The company has a rule of its own, or all the rules there are, and the one in the variable, are the
default. -/
def NoRuleLeaks (companyid : Int) (manager : ManagerDN) : Prop :=
  companyid ∈ manager.compyidDNrulemap ∨
    manager.dnChooseRule = dnRuleSelect ∧
      ∀ (other rule : Int), manager.compyidDNrulemap[other]? = some rule → rule = dnRuleSelect

theorem ruleIsOwn_iff (companyid : Int) (manager : ManagerDN) :
    RuleIsOwn companyid manager ↔ NoRuleLeaks companyid manager := by
  constructor
  · intro own
    by_cases hasRule : companyid ∈ manager.compyidDNrulemap
    · exact .inl hasRule
    · have noRule := ExtTreeMap.getElem?_eq_none hasRule
      have applied : ∀ calls : List Int, companyid ∉ calls →
          (calls.filterMap fun other => manager.compyidDNrulemap[other]?).getLast?.getD manager.dnChooseRule =
            dnRuleSelect := by
        intro calls others
        have rule := own.rule calls others
        rwa [ruleApplied_afterCalls, noRule, Option.getD_none, Option.getD_none] at rule
      refine .inr ⟨applied [] (by simp), fun other rule present => ?_⟩
      -- A call for the other company alone leaves its rule behind.
      have differs : companyid ∉ [other] := by
        rw [List.mem_singleton]
        rintro rfl
        rw [noRule] at present
        cases present
      simpa [present] using applied [other] differs
  · intro noLeak
    have rule : ∀ calls, companyid ∉ calls → ruleApplied companyid (afterCalls calls manager) =
        manager.compyidDNrulemap[companyid]?.getD dnRuleSelect := by
      intro calls _
      rw [ruleApplied_afterCalls]
      rcases noLeak with hasRule | ⟨start, rules⟩
      · rw [ExtTreeMap.getElem?_eq_some_getElem hasRule]
        rfl
      · congr 1
        cases last : (calls.filterMap fun other => manager.compyidDNrulemap[other]?).getLast? with
        | none => exact start
        | some rule =>
          obtain ⟨other, _, present⟩ := List.mem_filterMap.mp (List.mem_of_getLast? last)
          exact rules other rule present
    refine ⟨rule, fun first second inFirst inSecond ambient => ?_⟩
    rw [getavailableAgent_afterCalls, getavailableAgent_afterCalls, rule first inFirst, rule second inSecond]

/-- Company 1 has the rule of the longest idle agent; company 2 is served by it, too, once company 1 was. -/
theorem rule_leaks_from_other_company :
    ¬ RuleIsOwn 2 { compyidDNrulemap := (∅ : ExtTreeMap Int Int).insert 1 1 } := by
  intro own
  have applied := own.rule [1] (by decide)
  exact absurd applied (by decide +kernel)

end CallCenter.Verified.CompanyRules
