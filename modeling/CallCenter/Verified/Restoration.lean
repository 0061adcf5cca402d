import CallCenter.Verified.Steps

/-!
# Agents restored from disk

`serialize` prints an object, `LoadDNSet` parses it again.  Where parsing gives the object back,
a row of the table becomes the agent `restored` describes, and loading all rows is one loop of
insertions (`loadDNSet_persisted`).
-/

namespace CallCenter.Verified

open Std (ExtTreeMap)
open CallCenter.Foundation CallCenter.Model

/-! ## Members of an object -/

theorem lookup_member (member : String × Json) (rest : List (String × Json)) (asked : String) :
    (member :: rest).lookup asked = if asked = member.1 then some member.2 else rest.lookup asked := by
  obtain ⟨name, value⟩ := member
  by_cases same : asked = name
  · simp [same]
  · rw [List.lookup_cons, beq_false_of_ne same, if_neg same]

theorem lookup_assignMember (key : String) (value : Json) (members : List (String × Json)) (asked : String) :
    (Json.assignMember key value members).lookup asked = if asked = key then some value else members.lookup asked := by
  induction members with
  | nil => exact lookup_member (key, value) [] asked
  | cons member rest inductionHypothesis =>
    rw [Json.assignMember]
    by_cases same : key = member.1
    · rw [if_pos same, lookup_member, lookup_member, same]
      split <;> rfl
    · rw [if_neg same]
      split
      · rw [lookup_member]
      · rw [lookup_member, lookup_member, inductionHypothesis]
        by_cases found : asked = member.1
        · rw [if_pos found, if_pos found, if_neg (fun equal => same (equal.symm.trans found))]
        · rw [if_neg found, if_neg found]

/-- A member of an object built by assignments is the last value assigned to it. -/
theorem member_ofMembers (members : List (String × Json)) (key : String) :
    (Json.ofMembers members).member key = .ok ((members.reverse.lookup key).getD .null) := by
  have built : ∀ (members start : List (String × Json)),
      (members.foldl (fun built entry => Json.assignMember entry.1 entry.2 built) start).lookup key =
        (members.reverse.lookup key).or (start.lookup key) := by
    intro members
    induction members with
    | nil => exact fun start => rfl
    | cons member rest inductionHypothesis =>
      intro start
      rw [List.foldl_cons, inductionHypothesis, lookup_assignMember, List.reverse_cons, List.lookup_append,
        lookup_member, List.lookup_nil, Option.or_assoc]
      split <;> rfl
  rw [Json.ofMembers, Json.member, built, List.lookup_nil, Option.or_none]

/-! ## One agent -/

/-- A value without members; its number, if it is one, is an `int`. -/
def Flat : Json → Prop
  | .int value => Json.inIntRange value = true
  | .bool _ => True
  | .string _ => True
  | _ => False

/-- Parsing inverts `toStyledString` on objects of plain values; an empty text does not parse. -/
structure ParsesBack (lib : Libraries) : Prop where
  parses : ∀ members : List (String × Json), members ≠ [] → (∀ member ∈ members, Flat member.2) →
    lib.parse (lib.toStyledString (.ofMembers members)) = some (.ofMembers members)
  empty : lib.parse "" = none

/-- The object `serialize` prints. -/
def serializedRoot (user : DNuser) : Json := .ofMembers
  [("commpanyid", .int user.commpanyid.value), ("DN", .string user.dn),
   ("agentid", .string user.agentid), ("reason", .string user.reason),
   ("agentstatus", .int user.agentstatus.value), ("agentPwd", .string user.agentPwd),
   ("autoAnswer", .bool user.autoAnswer.value), ("fcSignin", .bool user.fcSignin.value),
   ("skills", .string user.skills), ("peerIP", .string user.peerIP)]

/-- Parsing gives back what `toStyledString` printed for the agent. -/
def ReadsBack (lib : Libraries) (user : DNuser) : Prop :=
  lib.parse (user.serialize lib) = some (serializedRoot user)

/-- The members `asInt` reads are values of the type `int`. -/
def HoldsInts (user : DNuser) : Prop :=
  Json.inIntRange user.commpanyid.value = true ∧ Json.inIntRange user.agentstatus.value = true

instance (user : DNuser) : Decidable (HoldsInts user) :=
  inferInstanceAs (Decidable (Json.inIntRange user.commpanyid.value = true ∧
    Json.inIntRange user.agentstatus.value = true))

theorem readsBack {lib : Libraries} (parsesBack : ParsesBack lib) {user : DNuser} (ints : HoldsInts user) :
    ReadsBack lib user := by
  refine parsesBack.parses _ (by simp) fun member listed => ?_
  simp only [List.mem_cons, List.not_mem_nil, or_false] at listed
  obtain rfl | rfl | rfl | rfl | rfl | rfl | rfl | rfl | rfl | rfl := listed
  · exact ints.1
  · trivial
  · trivial
  · trivial
  · exact ints.2
  all_goals trivial

/-- What `Unserialize` makes of a default-constructed agent. -/
def unserialized (ambient : Ambient) (user : DNuser) : DNuser :=
  { DNuser.default ambient with
    commpanyid  := .assign user.commpanyid.value
    dn          := user.dn
    agentid     := user.agentid
    reason      := user.reason
    agentstatus := .assign user.agentstatus.value
    agentPwd    := user.agentPwd
    autoAnswer  := .assign user.autoAnswer.value
    fcSignin    := .assign user.fcSignin.value
    skills      := user.skills
    peerIP      := user.peerIP }

/-- The agent `LoadDNSet` puts into the map: the one it read, ready. -/
def restored (ambient : Ambient) (user : DNuser) : DNuser :=
  { unserialized ambient user with agentstatus := .assign AgentStatus.waitingReady.code }

theorem unserialize_serialize {lib : Libraries} {user : DNuser} (readsBack : ReadsBack lib user)
    (ints : HoldsInts user) (ambient : Ambient) :
    (DNuser.default ambient).unserialize lib (user.serialize lib) = .ok (unserialized ambient user) := by
  obtain ⟨company, status⟩ := ints
  simp only [DNuser.unserialize, lib.read_of_parse readsBack, serializedRoot, bind, Except.bind, member_ofMembers]
  simp [lookup_member, Json.asInt, Json.asString, Json.asBool, company, status, pure, Except.pure,
    unserialized]

/-! ## The table -/

/-- The row `InsertTable` writes for an agent. -/
def persisted (lib : Libraries) (entry : String × DNuser) : String × String := (entry.1, entry.2.serialize lib)

theorem restoreRow_persisted {lib : Libraries} (empty : lib.parse "" = none) {entry : String × DNuser}
    (readsBack : ReadsBack lib entry.2) (ints : HoldsInts entry.2) (ambient : Ambient) (manager : ManagerDN) :
    manager.restoreRow lib ambient (persisted lib entry) =
      .ok { manager.setDNsemaSignal with
        dnMap := manager.dnMap.insert entry.1 (restored ambient entry.2) } := by
  have text : entry.2.serialize lib ≠ "" := by
    intro blank
    rw [ReadsBack, blank, empty] at readsBack
    contradiction
  simp only [ManagerDN.restoreRow, persisted, ne_eq, text, not_false_eq_true, if_true,
    unserialize_serialize readsBack ints ambient]
  rfl

/-- Every agent of the table comes back, ready, and the manager is signalled for each of them. -/
theorem loadDNSet_persisted {lib : Libraries} (empty : lib.parse "" = none) {entries : List (String × DNuser)}
    (readBack : ∀ entry ∈ entries, ReadsBack lib entry.2 ∧ HoldsInts entry.2) {manager : ManagerDN}
    (table : manager.presisted = some (entries.map (persisted lib))) (ambient : Ambient) :
    manager.loadDNSet lib true ambient = .ok { manager with
      readyDNsema := manager.readyDNsema + entries.length
      dnMap := entries.foldl (fun agents entry => agents.insert entry.1 (restored ambient entry.2))
        manager.dnMap } := by
  have rowByRow : ∀ (entries : List (String × DNuser)) (manager : ManagerDN),
      (∀ entry ∈ entries, ReadsBack lib entry.2 ∧ HoldsInts entry.2) →
      (entries.map (persisted lib)).foldlM (ManagerDN.restoreRow lib ambient) manager = .ok { manager with
        readyDNsema := manager.readyDNsema + entries.length
        dnMap := entries.foldl (fun agents entry => agents.insert entry.1 (restored ambient entry.2))
          manager.dnMap } := by
    intro entries
    induction entries with
    | nil => exact fun manager _ => rfl
    | cons entry rest inductionHypothesis =>
      intro manager readBack
      obtain ⟨first, others⟩ := List.forall_mem_cons.mp readBack
      have last := inductionHypothesis { manager.setDNsemaSignal with
        dnMap := manager.dnMap.insert entry.1 (restored ambient entry.2) } others
      rw [List.map_cons, List.foldlM_cons, restoreRow_persisted empty first.1 first.2]
      refine last.trans ?_
      simp [ManagerDN.setDNsemaSignal, Nat.add_assoc, Nat.add_comm 1]
  rw [ManagerDN.loadDNSet, if_pos rfl]
  split
  · rename_i rows stored
    rw [table, Option.some.injEq] at stored
    subst stored
    exact rowByRow entries manager readBack
  · rename_i missing
    rw [table] at missing
    contradiction

end CallCenter.Verified
