import CallCenter.Verified.Mirror

/-!
# The company of an agent

`Signin` looks the company up in the routing table and copies it into the agent, and from there it
goes to disk.  A reload replaces the table and leaves the agents alone, so the company of an agent is
the one of the table its sign-in found, through any number of reloads and restarts.  An agent may sign
out and in again, for another company, between the scan that chose it and the dispatch; so a call goes
to an agent that has signed in for the company of the call, but not always last.
-/

namespace CallCenter.Verified

open Std (ExtTreeMap)
open CallCenter.Foundation CallCenter.Model

/-- The company of the first route of an extension; `none` if no route names it. -/
def routedCompany (dn : String) (vRoute : List Route) : Option Int :=
  (vRoute.find? fun route => route.agent == dn).map fun route => atoi route.groupId

/-- The last sign-in that put the extension into the map found this company in the routing table. -/
def SignedInWith (lib : Libraries) (start : System) (happenings : List Happening) (dn : String)
    (company : Int) :
    Prop :=
  ∃ earlier enters later before, happenings = earlier ++ enters :: later ∧
    Run (Steps (System.live lib)) start earlier before ∧
    entersAgent dn before enters = true ∧
    routedCompany dn before.manager.gRoute = some company ∧
    ∀ front other back, later = front ++ other :: back →
      entersAgent dn (finish (System.live lib) start (earlier ++ enters :: front)) other = false

namespace SignedInWith

variable {lib : Libraries} {start reached : System} {past : List Happening} {dn : String} {company : Int}

/-- The sign-in itself: it looks the first route up. -/
theorem now (leads : Run (Steps (System.live lib)) start past reached) {happening : Happening}
    (enters : entersAgent dn reached happening = true) :
    SignedInWith lib start (past ++ [happening]) dn (atoi (reached.manager.getcompanyidbyDN dn)) := by
  have valid : reached.manager.checkvaildDN dn = true := by
    cases happening with
    | restart answers opened ambient => simp [entersAgent] at enters
    | operation action =>
      cases action <;> simp only [entersAgent, Bool.and_eq_true, Bool.false_eq_true] at enters
      exact enters.1.2
  refine ⟨past, happening, [], reached, rfl, leads, enters, ?_, fun front other back split => by simp at split⟩
  rw [routedCompany, ManagerDN.getcompanyidbyDN]
  cases first : reached.manager.gRoute.find? fun route => route.agent == dn with
  | some route => rfl
  | none =>
    simp only [ManagerDN.checkvaildDN, List.any_eq_true] at valid
    obtain ⟨route, member, named⟩ := valid
    exact absurd named (List.find?_eq_none.mp first route member)

end SignedInWith

/-- What the companies in the map and the table are may be restated for the extensions in the map. -/
theorem Mirrored.mono {lib : Libraries} {company wider : String → Int → Prop} {manager : ManagerDN}
    (mirrored : Mirrored lib company manager)
    (allowed : ∀ dn value, dn ∈ manager.dnMap → company dn value →
      wider dn value) : Mirrored lib wider manager where
  rows := by
    obtain ⟨entries, stored, distinct, listed, users⟩ := mirrored.rows
    refine ⟨entries, stored, distinct, listed, fun entry member => ?_⟩
    have present := (listed entry.1).mp (List.mem_map_of_mem member)
    exact { users entry member with company := allowed _ _ present (users entry member).company }
  kept := by
    intro dn user present
    have there := mirrored.of_present present
    exact { there.2 with company := allowed _ _ there.1 there.2.company }

end CallCenter.Verified
