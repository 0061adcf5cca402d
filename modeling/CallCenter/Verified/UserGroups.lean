import CallCenter.Verified.StatusChanges

/-!
# The groups of a `getusers` response

The label of every group is read through the iterator that counted the departments, which stands at
the end of the list of agents.  So the agents are grouped as they should be, and no label is theirs.
-/

namespace CallCenter.Verified

open Std (ExtTreeMap)
open CallCenter.Foundation CallCenter.Model
open CallCenter.Model.WSapserver

/-- The agent passes the filters of a request; `""` stands for every department and `"0"` for every
status. -/
def PassesFilters (departmentId status : String) (user : DNuser) : Prop :=
  (departmentId = "" ∨ user.departmentId.value = atoi departmentId) ∧
    (status = "0" ∨ user.agentstatus.value = atoi status)

instance (departmentId status : String) (user : DNuser) : Decidable (PassesFilters departmentId status user) :=
  inferInstanceAs (Decidable (_ ∧ _))

/-- The agents of the map that pass the filters. -/
def matching (departmentId status : String) (manager : ManagerDN) : List DNuser :=
  (manager.dnMap.toList.map Prod.snd).filter fun user => PassesFilters departmentId status user

/-- A group as a client reads it. -/
def userGroup (label : Int) (members : List DNuser) : Json :=
  .ofMembers
    [("department", .int label),
     ("users", .appended (members.map fun user => .ofMembers
        [("id", .string user.agentid), ("name", .string user.userName)]))]

/-- The response lists these agents, each once, in groups under different labels, each agent under
the label of its department. -/
def ListsInGroups (users : List DNuser) (response : Json) : Prop :=
  ∃ groups : List (Int × List DNuser),
    response.member "data" = .ok (.appended (groups.map fun group => userGroup group.1 group.2)) ∧
    (groups.map Prod.fst).Nodup ∧
    (∀ group ∈ groups, ∀ user ∈ group.2, user.departmentId.value = group.1) ∧
    (groups.flatMap Prod.snd).Perm users

/-- The loop over the departments dereferences no iterator at the end.  It begins where the loop that
collects them ends. -/
def ReadsInside (userlist : List DNuser) : Prop :=
  (groupUsers (departmentAt userlist) userlist userlist.length (departments userlist)).isOk = true

/-- What a `getusers` request should get. -/
structure GroupsUsers (lib : Libraries) (message : ClientMessage) (asker departmentId status : String)
    (server : WSapserver) : Prop where
  answered : ∃ response after, server.handle lib message = some after ∧
    after.sent = server.sent ++ [response] ∧
      ListsInGroups (matching departmentId status server.manager) response
  inside : ReadsInside (server.manager.getUserInfolist asker departmentId status).2

/-! ## The loop over the departments -/

/-- Read as whatever stands behind the list, the labels are those of the response. -/
theorem groupUsers_junk (userlist : List DNuser) (ambient : Ambient) (ite : Nat) (departments : List Int) :
    groupUsers (fun _ => .ok (ambient.junk "userlist.end()->m_department_id")) userlist ite departments =
      .ok (departments.map (departmentset userlist ambient)) := by
  induction departments generalizing ite with
  | nil => rfl
  | cons departmentite departments inductionHypothesis =>
    rw [groupUsers]
    simp only [bind, Except.bind, inductionHypothesis]
    rfl

theorem readsInside_iff (userlist : List DNuser) : ReadsInside userlist ↔ userlist = [] := by
  constructor
  · intro inside
    cases collected : departments userlist with
    | nil =>
      refine List.eq_nil_iff_forall_not_mem.mpr fun user listed => ?_
      have member := mem_departments_iff.mpr ⟨user, listed, rfl⟩
      rw [collected] at member
      cases member
    | cons departmentite others =>
      -- the first label is read at the end already
      rw [ReadsInside, collected, groupUsers, departmentAt, List.getElem?_eq_none le_rfl] at inside
      cases inside
  · rintro rfl
    rfl

/-- Entries filtered by each of their keys in turn are the entries. -/
theorem flatMap_filter_perm {Entry Key : Type} [DecidableEq Key] (key : Entry → Key) {keys : List Key}
    {entries : List Entry} (distinct : keys.Nodup) (keyed : ∀ entry ∈ entries, key entry ∈ keys) :
    (keys.flatMap fun k => entries.filter fun entry => key entry == k).Perm entries := by
  induction keys generalizing entries with
  | nil =>
    have none : entries = [] := List.eq_nil_iff_forall_not_mem.mpr fun entry listed => by
      simpa using keyed entry listed
    rw [none]
    exact .refl _
  | cons first keys inductionHypothesis =>
    obtain ⟨fresh, distinct⟩ := List.nodup_cons.mp distinct
    let others := entries.filter fun entry => !(key entry == first)
    -- the later keys find the same entries among those the first key leaves
    have same : (keys.flatMap fun k => entries.filter fun entry => key entry == k) =
        keys.flatMap fun k => others.filter fun entry => key entry == k := by
      refine List.flatMap_congr fun k later => ?_
      rw [List.filter_filter]
      refine List.filter_congr fun entry _ => ?_
      by_cases own : key entry = k
      · have different : key entry ≠ first := fun isFirst => fresh (isFirst ▸ own ▸ later)
        simp [own ▸ different, own]
      · simp [own]
    have keyedOthers : ∀ entry ∈ others, key entry ∈ keys := by
      intro entry listed
      obtain ⟨inEntries, different⟩ := List.mem_filter.mp listed
      exact (List.mem_cons.mp (keyed entry inEntries)).resolve_left (by simpa using different)
    rw [List.flatMap_cons, same]
    exact ((inductionHypothesis distinct keyedOthers).append_left _).trans
      (List.filter_append_perm (fun entry => key entry == first) entries)

theorem departments_nodup (userlist : List DNuser) : (departments userlist).Nodup :=
  (List.perm_insertionSort (· ≤ ·) _).nodup_iff.mpr (List.nodup_dedup _)

/-- The members of the groups are the agents, each once. -/
theorem flatMap_departments_perm (userlist : List DNuser) :
    ((departments userlist).flatMap fun departmentite =>
      userlist.filter fun user => user.departmentId.value == departmentite).Perm userlist :=
  flatMap_filter_perm (fun user : DNuser => user.departmentId.value) (departments_nodup userlist)
    fun user listed => mem_departments_iff.mpr ⟨user, listed, rfl⟩

/-- Whatever stands behind the list, every agent is in one group, and that holds its department only;
the labels of all groups are the same. -/
theorem ongetusers_groups (code : Int) (userlist : List DNuser) (ambient : Ambient) :
    ∃ groups : List (Int × List DNuser),
      (ongetusers code userlist ambient).member "data" =
        .ok (.appended (groups.map fun group =>
          userGroup (ambient.junk "userlist.end()->m_department_id") group.2)) ∧
      (groups.map Prod.fst).Nodup ∧
      (∀ group ∈ groups, ∀ user ∈ group.2, user.departmentId.value = group.1) ∧
      (groups.flatMap Prod.snd).Perm userlist := by
  refine ⟨(departments userlist).map fun departmentite =>
    (departmentite, userlist.filter fun user => user.departmentId.value == departmentite), ?_, ?_, ?_, ?_⟩
  · rw [ongetusers, member_ofMembers, List.map_map]
    rfl
  · rw [List.map_map]
    exact (List.map_id (departments userlist)).symm ▸ departments_nodup userlist
  · intro group listed user member
    obtain ⟨departmentite, _, rfl⟩ := List.mem_map.mp listed
    simpa using (List.mem_filter.mp member).2
  · rw [List.flatMap_map]
    exact flatMap_departments_perm userlist

/-! ## The request -/

theorem getUserInfolist_of_signedIn {manager : ManagerDN} {asker : String} (signedIn : asker ∈ manager.dnMap)
    (departmentId status : String) :
    manager.getUserInfolist asker departmentId status =
      (.operatorSuccessed, matching departmentId status manager) := by
  rw [ManagerDN.getUserInfolist, if_pos signedIn, matching]
  congr 1
  refine List.filter_congr fun user _ => ?_
  rw [Bool.eq_iff_iff, decide_eq_true_iff]
  simp [PassesFilters]

/-- A `getusers` request gets what it should exactly when no agent passes its filters. -/
theorem groupsUsers_iff {lib : Libraries} {server : WSapserver} {message : ClientMessage}
    {fields : List (String × Json)} {asker departmentId status : String}
    (requests : Requests lib message "getusers" fields)
    (asks : fields.lookup "userId" = some (.string asker))
    (placed : fields.lookup "department" = some (.string departmentId))
    (stated : fields.lookup "state" = some (.string status)) (signedIn : asker ∈ server.manager.dnMap) :
    GroupsUsers lib message asker departmentId status server ↔
      matching departmentId status server.manager = [] := by
  have found := getUserInfolist_of_signedIn signedIn departmentId status
  constructor
  · intro groups
    have inside := groups.inside
    rw [found] at inside
    exact (readsInside_iff _).mp inside
  · intro nobody
    have branch : getcmdType "getusers" = .getusers := by decide +kernel
    have handled := requests.handle_eq server
    rw [branch, perform, getusers, stringField_of_lookup asks, stringField_of_lookup stated,
      stringField_of_lookup placed] at handled
    simp only [bind, Except.bind, found] at handled
    refine ⟨⟨_, _, handled, rfl, [], ?_, List.nodup_nil, fun _ member => absurd member List.not_mem_nil, ?_⟩, ?_⟩
    · rw [nobody, ongetusers, member_ofMembers]
      rfl
    · rw [nobody]
      exact .refl _
    · rw [found]
      exact (readsInside_iff _).mpr nobody

def usersText : String :=
  "\x7b\x22action\x22:\x22getusers\x22,\x22param\x22:\x7b\x22department\x22:\x22\x22,\x22state\x22:\x220\x22,"
    ++ "\x22userId\x22:\x221001\x22\x7d\x7d"

/-- The same for the agents who are on a break. -/
def parkedText : String :=
  "\x7b\x22action\x22:\x22getusers\x22,\x22param\x22:\x7b\x22department\x22:\x22\x22,\x22state\x22:\x223\x22,"
    ++ "\x22userId\x22:\x221001\x22\x7d\x7d"

def usersFields (state : String) : List (String × Json) :=
  [("department", .string ""), ("state", .string state), ("userId", .string "1001")]

/-- jsoncpp on these two requests. -/
def usersLibraries : Libraries :=
  { lockedDatabase with
    flat_of_parse := fun _ _ _ => rfl
    parse := fun text =>
      if text = usersText then
        some (.object [("action", .string "getusers"), ("param", .object (usersFields "0"))])
      else if text = parkedText then
        some (.object [("action", .string "getusers"), ("param", .object (usersFields "3"))])
      else none }

/-- The server of a company whose agent 1001 has signed in. -/
def usersServer : WSapserver :=
  startServer (finish (System.step usersLibraries) (System.initial none "88")
    [configured companyRoutes [], readyAgent "1001"]).manager

theorem requests_users : Requests usersLibraries (fromClient usersText) "getusers" (usersFields "0") :=
  ⟨by decide +kernel, by decide +kernel, _, rfl, rfl, rfl⟩

theorem requests_parked : Requests usersLibraries (fromClient parkedText) "getusers" (usersFields "3") := by
  have different : parkedText ≠ usersText := by decide +kernel
  refine ⟨by decide +kernel, by decide +kernel,
    [("action", .string "getusers"), ("param", .object (usersFields "3"))], ?_, rfl, rfl⟩
  simp [Libraries.read, usersLibraries, lockedDatabase, fromClient, different]

/-- Nobody is on a break, and the response has no groups. -/
theorem groupsUsers_nobody : GroupsUsers usersLibraries (fromClient parkedText) "1001" "" "3" usersServer :=
  (groupsUsers_iff requests_parked rfl rfl rfl (by decide +kernel)).mpr (by decide +kernel)

/-- The only agent asks for everybody: the label of its group is read behind the list. -/
theorem label_read_at_end :
    ¬ ∀ (lib : Libraries) (server : WSapserver) (message : ClientMessage) (fields : List (String × Json))
      (asker departmentId status : String), Reached lib server → Requests lib message "getusers" fields →
      fields.lookup "userId" = some (.string asker) → fields.lookup "department" = some (.string departmentId) →
      fields.lookup "state" = some (.string status) → asker ∈ server.manager.dnMap →
      GroupsUsers lib message asker departmentId status server := by
  intro grouped
  have reached : Reached usersLibraries usersServer := ⟨none, "88", _, _, run_finish (by decide +kernel), rfl⟩
  have groups :=
    grouped usersLibraries usersServer (fromClient usersText) (usersFields "0") "1001" "" "0" reached
    requests_users rfl rfl rfl (by decide +kernel)
  have someone : (usersServer.manager.getUserInfolist "1001" "" "0").2 ≠ [] := by decide +kernel
  exact someone ((readsInside_iff _).mp groups.inside)

end CallCenter.Verified
