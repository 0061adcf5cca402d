import CallCenter.Verified.AgentMap
import CallCenter.Verified.WorkingLibraries

/-!
# The table on disk

`dnuser` should hold one row for every extension in `m_DNmap` and no other.  The statements are
built by formatting, so that fails for a text with a quote in it: the insertion is ill-formed and
its outcome is ignored, in `Changestate` after the old row has been deleted.  It also fails where
`operator[]` creates the agent a call goes to.  `KeepsRows` excludes these; then the table follows
the map over every run, restarts included.
-/

namespace CallCenter.Verified

open Std (ExtTreeMap LawfulEqOrd)
open CallCenter.Foundation CallCenter.Model

/-- What the copies on disk need of sqlite and jsoncpp.  A statement whose texts hold no quote is
well-formed and runs; an object of plain values parses back, and prints no quote of its own. -/
structure KeepsCopies (lib : Libraries) : Prop extends ParsesBack lib where
  inserts : ∀ dn text rows, Quotable dn → Quotable text →
    lib.sqlite3Exec ("Insert into  dnuser (strdn  ,strserize ) values('" ++ dn ++ "','" ++ text ++ "') ")
      (some rows) =
      some (some (rows ++ [(dn, text)]))
  deletes : ∀ dn rows, Quotable dn →
    lib.sqlite3Exec ("delete from  dnuser where strdn = '" ++ dn ++ "'") (some rows) =
      some (some (rows.filter fun row => row.1 ≠ dn))
  prints : ∀ members : List (String × Json), (∀ member ∈ members, QuotableMember member) →
    Quotable (lib.toStyledString (.ofMembers members))

theorem mem_assignMember {key : String} {value : Json} {members : List (String × Json)}
    {member : String × Json} (present : member ∈ Json.assignMember key value members) :
    member = (key, value) ∨ member ∈ members := by
  induction members with
  | nil => exact .inl (List.mem_singleton.mp present)
  | cons first rest inductionHypothesis =>
    rw [Json.assignMember] at present
    split at present
    · cases List.mem_cons.mp present with
      | inl same => exact .inl same
      | inr later => exact .inr (List.mem_cons_of_mem _ later)
    · split at present
      · exact List.mem_cons.mp present
      · cases List.mem_cons.mp present with
        | inl same => exact .inr (same ▸ List.mem_cons_self)
        | inr later => exact (inductionHypothesis later).imp id (List.mem_cons_of_mem _)

theorem assignMember_ne_nil (key : String) (value : Json) (members : List (String × Json)) :
    Json.assignMember key value members ≠ [] := by
  cases members with
  | nil => simp [Json.assignMember]
  | cons first rest =>
    rw [Json.assignMember]
    split
    · simp
    · split <;> simp

/-- The members of an object are among those assigned, and there are some if any was. -/
theorem ofMembers_eq (members : List (String × Json)) :
    ∃ built, Json.ofMembers members = .object built ∧ (members ≠ [] → built ≠ []) ∧
      ∀ member ∈ built, member ∈ members := by
  -- over any members built so far, since the fold carries them along
  have assigned : ∀ (members start : List (String × Json)),
      (members ≠ [] ∨ start ≠ [] →
        members.foldl (fun built entry => Json.assignMember entry.1 entry.2 built) start ≠ []) ∧
      ∀ member ∈ members.foldl (fun built entry => Json.assignMember entry.1 entry.2 built) start,
        member ∈ start ∨ member ∈ members := by
    intro members
    induction members with
    | nil =>
      intro start
      exact ⟨fun some' => some'.resolve_left (fun absent => absent rfl), fun member present => .inl present⟩
    | cons first rest inductionHypothesis =>
      intro start
      obtain ⟨filled, known⟩ := inductionHypothesis (Json.assignMember first.1 first.2 start)
      refine ⟨fun _ => filled (.inr (assignMember_ne_nil _ _ _)), fun member present => ?_⟩
      cases known member present with
      | inl early =>
        cases mem_assignMember early with
        | inl same => exact .inr (same ▸ List.mem_cons_self)
        | inr start => exact .inl start
      | inr later => exact .inr (List.mem_cons_of_mem _ later)
  obtain ⟨filled, known⟩ := assigned members []
  exact ⟨_, rfl, fun some' => filled (.inl some'),
    fun member present => (known member present).resolve_left List.not_mem_nil⟩

theorem workingLibraries_keepsCopies : KeepsCopies workingLibraries where
  inserts _ _ rows quotableDn quotableText := sqlite_insert quotableDn quotableText rows
  deletes _ rows quotable := sqlite_delete quotable rows
  parses members some' flat := by
    obtain ⟨built, shape, filled, known⟩ := ofMembers_eq members
    rw [shape]
    exact parse_toStyledString (filled some') fun member present => flat member (known member present)
  prints members quotable := by
    obtain ⟨built, shape, _, known⟩ := ofMembers_eq members
    rw [shape]
    exact quotable_toStyledString fun member present => quotable member (known member present)
  empty := rfl

/-! ## One row -/

namespace QuotableMember

variable {name : String}

theorem int (quotable : Quotable name) {value : Int} (range : Json.inIntRange value = true) :
    QuotableMember (name, .int value) :=
  ⟨quotable, range, fun _ shape => by cases shape⟩

theorem bool (quotable : Quotable name) (value : Bool) : QuotableMember (name, .bool value) :=
  ⟨quotable, trivial, fun _ shape => by cases shape⟩

theorem string (quotable : Quotable name) {text : String} (quotableText : Quotable text) :
    QuotableMember (name, .string text) :=
  ⟨quotable, trivial, fun _ shape => Json.string.inj shape ▸ quotableText⟩

end QuotableMember

/-- An agent whose row can be written and read back. -/
structure Storable (dn : String) (user : DNuser) : Prop where
  ownKey : user.dn = dn
  name : Quotable user.dn
  agentid : Quotable user.agentid
  reason : Quotable user.reason
  agentPwd : Quotable user.agentPwd
  skills : Quotable user.skills
  peerIP : Quotable user.peerIP
  ints : HoldsInts user

/-- The delete names the extension alone. -/
theorem KeepsCopies.deleteTable {lib : Libraries} (copies : KeepsCopies lib) {user : DNuser} (name : Quotable user.dn)
    (rows : List (String × String)) :
    (deleteTable lib user (some rows)).2 = some (rows.filter fun row => row.1 ≠ user.dn) := by
  rw [Model.deleteTable, cStr_of_quotable name, runStatement, copies.deletes user.dn rows name]

namespace Storable

variable {lib : Libraries} {dn : String} {user : DNuser}

theorem quotable (storable : Storable dn user) (copies : KeepsCopies lib) : Quotable (user.serialize lib) := by
  refine copies.prints _ fun member listed => ?_
  simp only [List.mem_cons, List.not_mem_nil, or_false] at listed
  obtain rfl | rfl | rfl | rfl | rfl | rfl | rfl | rfl | rfl | rfl := listed
  · exact .int (by decide) storable.ints.1
  · exact .string (by decide) storable.name
  · exact .string (by decide) storable.agentid
  · exact .string (by decide) storable.reason
  · exact .int (by decide) storable.ints.2
  · exact .string (by decide) storable.agentPwd
  · exact .bool (by decide) _
  · exact .bool (by decide) _
  · exact .string (by decide) storable.skills
  · exact .string (by decide) storable.peerIP

theorem insertTable (storable : Storable dn user) (copies : KeepsCopies lib) (rows : List (String × String)) :
    (insertTable lib user (some rows)).2 = some (rows ++ [persisted lib (dn, user)]) := by
  obtain rfl := storable.ownKey
  have ran := copies.inserts user.dn (user.serialize lib) rows storable.name (storable.quotable copies)
  rw [Model.insertTable, cStr_of_quotable storable.name, cStr_of_quotable (storable.quotable copies),
    runStatement, ran]
  rfl

theorem deleteTable (storable : Storable dn user) (copies : KeepsCopies lib) (rows : List (String × String)) :
    (deleteTable lib user (some rows)).2 = some (rows.filter fun row => row.1 ≠ dn) := by
  obtain rfl := storable.ownKey
  exact copies.deleteTable storable.name rows

end Storable

/-- An agent as the map and the table hold it: it can be stored, and belongs to a company its extension
may have. -/
structure Kept (company : String → Int → Prop) (dn : String) (user : DNuser) :
    Prop extends Storable dn user where
  company : company dn user.commpanyid.value

theorem waitingReady_inIntRange : Json.inIntRange AgentStatus.waitingReady.code = true := by decide

namespace Kept

variable {company : String → Int → Prop} {dn : String} {user : DNuser}

theorem setagnetStatus (kept : Kept company dn user) {status : Int} (range : Json.inIntRange status = true) :
    Kept company dn (user.setagnetStatus status) :=
  { kept with ints := ⟨kept.ints.1, range⟩ }

theorem callEnded (kept : Kept company dn user) (billsec : String) : Kept company dn (user.callEnded billsec) :=
  { kept with ints := ⟨kept.ints.1, waitingReady_inIntRange⟩ }

theorem reset (kept : Kept company dn user) (departmentId : Int) (departmentName userName : String) :
    Kept company dn { user with
      departmentId := .assign departmentId
      departmentName, userName
      agentstatus := .assign AgentStatus.waitingReady.code } :=
  { kept with ints := ⟨kept.ints.1, waitingReady_inIntRange⟩ }

theorem restored (kept : Kept company dn user) (ambient : Ambient) : Kept company dn (restored ambient user) :=
  { kept with ints := ⟨kept.ints.1, waitingReady_inIntRange⟩ }

end Kept

/-! ## The table -/

/-- The table holds one row for each of the names, and no other; every row can be read back. -/
def Rows (lib : Libraries) (company : String → Int → Prop) (table : DnuserTable) (names : String → Prop) :
    Prop :=
  ∃ entries : List (String × DNuser), table = some (entries.map (persisted lib)) ∧
    (entries.map Prod.fst).Nodup ∧ (∀ dn, dn ∈ entries.map Prod.fst ↔ names dn) ∧
    ∀ entry ∈ entries, Kept company entry.1 entry.2

namespace Rows

variable {lib : Libraries} {company : String → Int → Prop} {table : DnuserTable} {names : String → Prop}
  {dn : String} {user : DNuser}

theorem of_iff {others : String → Prop} (rows : Rows lib company table names)
    (same : ∀ dn, names dn ↔ others dn) :
    Rows lib company table others := by
  obtain ⟨entries, stored, distinct, listed, users⟩ := rows
  exact ⟨entries, stored, distinct, fun dn => (listed dn).trans (same dn), users⟩

theorem insert (rows : Rows lib company table names) (copies : KeepsCopies lib) (fresh : ¬ names dn)
    (kept : Kept company dn user) :
    Rows lib company (insertTable lib user table).2 fun asked => asked = dn ∨ names asked := by
  obtain ⟨entries, rfl, distinct, listed, users⟩ := rows
  refine ⟨entries ++ [(dn, user)], ?_, ?_, ?_, ?_⟩
  · rw [kept.insertTable copies, List.map_append]
    rfl
  · rw [List.map_append, List.nodup_append]
    -- the new name was in no row
    refine ⟨distinct, by simp, ?_⟩
    intro name inTable other added same
    rw [List.map_singleton, List.mem_singleton] at added
    have dnSame : name = dn := same.trans added
    subst dnSame
    exact fresh ((listed name).mp inTable)
  · intro asked
    rw [List.map_append, List.mem_append, listed asked]
    simp [or_comm]
  · intro entry member
    cases List.mem_append.mp member with
    | inl old => exact users entry old
    | inr added => exact List.mem_singleton.mp added ▸ kept

theorem delete (rows : Rows lib company table names) (copies : KeepsCopies lib) (kept : Kept company dn user) :
    Rows lib company (deleteTable lib user table).2 fun asked => asked ≠ dn ∧ names asked := by
  obtain ⟨entries, rfl, distinct, listed, users⟩ := rows
  refine ⟨entries.filter fun entry => entry.1 ≠ dn, ?_, ?_, ?_, ?_⟩
  · rw [kept.deleteTable copies, List.filter_map]
    rfl
  · exact (List.filter_sublist.map Prod.fst).nodup distinct
  · intro asked
    show asked ∈ (entries.filter fun entry => entry.1 ≠ dn).map Prod.fst ↔ asked ≠ dn ∧ names asked
    rw [← listed asked]
    simp only [List.mem_map, List.mem_filter, decide_eq_true_eq]
    constructor
    · rintro ⟨entry, ⟨member, other⟩, rfl⟩
      exact ⟨other, entry, member, rfl⟩
    · rintro ⟨other, entry, member, rfl⟩
      exact ⟨entry, ⟨member, other⟩, rfl⟩
  · exact fun entry member => users entry (List.mem_filter.mp member).1

/-- `Changestate` puts one row in place of another. -/
theorem change (rows : Rows lib company table names) (copies : KeepsCopies lib) (present : names dn)
    (kept : Kept company dn user) : Rows lib company (changestate lib user table).2 names := by
  -- `Changestate` is a delete and an insert; in between the row is missing
  have without := rows.delete copies kept
  refine (without.insert copies (fun there => there.1 rfl) kept).of_iff fun asked => ?_
  by_cases same : asked = dn
  · simp [same, present]
  · simp [same]

end Rows

/-! ## The mirror -/

/-- Table `dnuser` has exactly the agents of `m_DNmap`. -/
structure Mirrored (lib : Libraries) (company : String → Int → Prop) (manager : ManagerDN) : Prop where
  rows : Rows lib company manager.presisted (· ∈ manager.dnMap)
  kept : ∀ (dn : String) (user : DNuser), manager.dnMap[dn]? = some user → Kept company dn user

section Mirrored

variable {lib : Libraries} {company : String → Int → Prop}

theorem Mirrored.of_eq {before after : ManagerDN} (mirrored : Mirrored lib company before)
    (agents : after.dnMap = before.dnMap) (table : after.presisted = before.presisted) :
    Mirrored lib company after where
  rows := by
    rw [agents, table]
    exact mirrored.rows
  kept := by
    rw [agents]
    exact mirrored.kept

theorem mirrored_initial (prefixNumber : String) :
    Mirrored lib company (System.initial (some []) prefixNumber).manager where
  rows := ⟨[], rfl, by simp, by simp [System.initial], by simp⟩
  kept := by simp [System.initial]

theorem Mirrored.of_present {manager : ManagerDN} (mirrored : Mirrored lib company manager) {dn : String}
    {user : DNuser} (present : manager.dnMap[dn]? = some user) : dn ∈ manager.dnMap ∧ Kept company dn user :=
  ⟨ExtTreeMap.mem_keys.mp (OrderedMap.mem_keys_of_getElem? present), mirrored.kept dn user present⟩

theorem Mirrored.modify {before after : ManagerDN} {key : String} {change : DNuser → DNuser}
    (mirrored : Mirrored lib company before)
    (keeps : ∀ user, Kept company key user → Kept company key (change user))
    (agents : after.dnMap = before.dnMap.modify key change) (table : after.presisted = before.presisted) :
    Mirrored lib company after where
  rows := by
    rw [table]
    exact mirrored.rows.of_iff fun dn => by rw [agents, ExtTreeMap.mem_modify]
  kept := by
    intro dn user present
    simp only [agents, ExtTreeMap.getElem?_modify, LawfulEqOrd.compare_eq_iff_eq] at present
    by_cases same : key = dn
    · subst same
      simp only [if_true] at present
      obtain ⟨old, found, rfl⟩ := Option.map_eq_some_iff.mp present
      exact keeps old (mirrored.kept key old found)
    · exact mirrored.kept dn user (by simpa [same] using present)

/-- `GetDNbyagentid` names an agent that is in the map. -/
theorem Mirrored.getDNbyagentid {manager : ManagerDN} (mirrored : Mirrored lib company manager)
    {agentId : String} (named : manager.getDNbyagentid agentId ≠ "") :
    ∃ user, manager.dnMap[manager.getDNbyagentid agentId]? = some user :=
  Option.isSome_iff_exists.mp
    (getDNbyagentid_isSome (fun dn user present => (mirrored.kept dn user present).ownKey) named)

end Mirrored

/-! ## One operation -/

section Operations

variable {lib : Libraries} {company : String → Int → Prop} {manager : ManagerDN}

theorem Mirrored.signin (mirrored : Mirrored lib company manager) (copies : KeepsCopies lib)
    (request : SigninRequest) (ambient : Ambient)
    (writes : manager.checkvaildDN request.agentDn = true → manager.dnMap[request.agentDn]? = none →
      Kept company request.agentDn ((DNuser.construct request ambient).inlineSetcompanyid
        (atoi (manager.getcompanyidbyDN request.agentDn)))) :
    Mirrored lib company (manager.signin lib request ambient).2 := by
  unfold ManagerDN.signin
  split
  · rename_i valid
    cases found : manager.dnMap[request.agentDn]? with
    | none =>
      have kept := writes valid found
      -- a new agent: the entry and its row come together
      have fresh : request.agentDn ∉ manager.dnMap := by simp [ExtTreeMap.mem_iff_isSome_getElem?, found]
      constructor
      · have rows := mirrored.rows.insert copies fresh kept
        simp only [signalIfReady_dnMap, signalIfReady_presisted]
        exact rows.of_iff fun dn => by
          rw [ExtTreeMap.mem_insert, LawfulEqOrd.compare_eq_iff_eq, eq_comm]
      · intro dn user present
        simp only [signalIfReady_dnMap, ExtTreeMap.getElem?_insert, LawfulEqOrd.compare_eq_iff_eq] at present
        by_cases same : request.agentDn = dn
        · subst same
          simp only [if_true, Option.some.injEq] at present
          exact present ▸ kept
        · exact mirrored.kept dn user (by simpa [same] using present)
    | some user =>
      -- an agent that is there becomes ready in memory; its row stays
      have agents := OrderedMap.subscript_of_mem found (.default ambient) (storeStatus .waitingReady)
      exact mirrored.modify (fun _ kept => kept.setagnetStatus waitingReady_inIntRange) agents rfl
  · exact mirrored

theorem Mirrored.signout (mirrored : Mirrored lib company manager) (copies : KeepsCopies lib) (agentId : String)
    (ambient : Ambient) : Mirrored lib company (manager.signout lib agentId ambient).2 := by
  simp only [ManagerDN.signout]
  split
  · rename_i named
    obtain ⟨user, found⟩ := mirrored.getDNbyagentid named
    constructor
    · have rows := mirrored.rows.delete copies (mirrored.kept _ user found)
      simp only [found, Option.getD_some]
      exact rows.of_iff fun dn => by
        rw [ExtTreeMap.mem_erase, ne_eq, ne_eq, LawfulEqOrd.compare_eq_iff_eq, eq_comm]
    · intro dn user present
      simp only [ExtTreeMap.getElem?_erase, LawfulEqOrd.compare_eq_iff_eq] at present
      by_cases same : manager.getDNbyagentid agentId = dn
      · simp [same] at present
      · exact mirrored.kept dn user (by simpa [same] using present)
  · exact mirrored

/-- The store of a status with the `Changestate` after it. -/
theorem Mirrored.changeStatus (mirrored : Mirrored lib company manager) (copies : KeepsCopies lib) {dn : String}
    {user : DNuser} (found : manager.dnMap[dn]? = some user) {status : Int}
    (range : Json.inIntRange status = true) (ambient : Ambient) :
    Mirrored lib company ((manager.setagnetStatus dn status ambient).changestate lib dn ambient) := by
  have agents : (manager.setagnetStatus dn status ambient).dnMap =
      manager.dnMap.modify dn (DNuser.setagnetStatus status) := by
    rw [setagnetStatus_dnMap, OrderedMap.subscript_of_mem found]
  -- first the store in the map, then the row of what the map holds
  have inMemory : Mirrored lib company (manager.setagnetStatus dn status ambient) :=
    mirrored.modify (fun _ kept => kept.setagnetStatus range) agents (setagnetStatus_presisted _ _ _ _)
  have changed : (manager.setagnetStatus dn status ambient).dnMap[dn]? = some (user.setagnetStatus status) := by
    rw [agents, ExtTreeMap.getElem?_modify]
    simp [found]
  obtain ⟨present, kept⟩ := inMemory.of_present changed
  constructor
  · simp only [ManagerDN.changestate, changed, Option.getD_some]
    exact inMemory.rows.change copies present kept
  · exact inMemory.kept

theorem Mirrored.resetDNinfo (mirrored : Mirrored lib company manager) (agentid : String) (departmentId : Int)
    (departmentName userName : String) (ambient : Ambient) :
    Mirrored lib company (manager.resetDNinfo agentid departmentId departmentName userName ambient).2 := by
  unfold ManagerDN.resetDNinfo
  split
  · exact mirrored
  · rename_i user found
    have agents := OrderedMap.subscript_of_mem found (.default ambient) fun user =>
      { user with
        departmentId := .assign departmentId
        departmentName, userName
        agentstatus := .assign AgentStatus.waitingReady.code }
    exact mirrored.modify (fun _ kept => kept.reset departmentId departmentName userName) agents rfl

theorem Mirrored.processEvent (mirrored : Mirrored lib company manager) {event : Event} {ambient : Ambient}
    {after : ManagerDN} (processed : manager.processEvent event ambient = .ok after) :
    Mirrored lib company after := by
  have agents := processEvent_dnMap processed
  have table : after.presisted = manager.presisted := by
    obtain ⟨_, _, _, _, _, _, _, _, _, rfl⟩ := processEvent_frame processed
    rfl
  unfold eventChange at agents
  split at agents
  · exact mirrored.modify (fun _ kept => kept.callEnded _) agents table
  · exact mirrored.modify (fun _ kept => kept.setagnetStatus (by decide)) agents table
  · exact mirrored.of_eq agents table

theorem Mirrored.dispatch (mirrored : Mirrored lib company manager) (copies : KeepsCopies lib) {dn : String}
    {user : DNuser} (found : manager.dnMap[dn]? = some user) (session : IvrSession) (ambient : Ambient) :
    Mirrored lib company (manager.inlineTransformAgent lib dn session ambient) := by
  have rings := mirrored.changeStatus copies found
      (by decide : Json.inIntRange AgentStatus.ringing.code = true) ambient
  unfold ManagerDN.inlineTransformAgent
  split
  · exact rings.of_eq rfl rfl
  · exact rings.of_eq rfl rfl

theorem loadDNSet_succeeds (copies : KeepsCopies lib) {names : String → Prop}
    (rows : Rows lib company manager.presisted names) (ambient : Ambient) :
    ∃ after, manager.loadDNSet lib true ambient = .ok after := by
  obtain ⟨entries, stored, _, _, users⟩ := rows
  have readable : ∀ entry ∈ entries, ReadsBack lib entry.2 ∧ HoldsInts entry.2 := fun entry member =>
    ⟨readsBack copies.toParsesBack (users entry member).ints, (users entry member).ints⟩
  exact ⟨_, loadDNSet_persisted copies.empty readable stored ambient⟩

/-- The agents of a table come back, beside those that are in the map and in the table. -/
theorem loadDNSet_mirrored {ambient : Ambient} {after : ManagerDN}
    (loaded : manager.loadDNSet lib true ambient = .ok after) (copies : KeepsCopies lib) {names : String → Prop}
    (rows : Rows lib company manager.presisted names)
    (known : ∀ (dn : String) (user : DNuser), manager.dnMap[dn]? = some user →
      names dn ∧ Kept company dn user) :
    Mirrored lib company after ∧ ∀ dn, dn ∈ after.dnMap ↔ names dn := by
  obtain ⟨entries, stored, distinct, listed, users⟩ := rows
  have readable : ∀ entry ∈ entries, ReadsBack lib entry.2 ∧ HoldsInts entry.2 := fun entry member =>
    ⟨readsBack copies.toParsesBack (users entry member).ints, (users entry member).ints⟩
  have shape := loadDNSet_persisted copies.empty readable stored ambient
  obtain rfl := Except.ok.inj (shape.symm.trans loaded)
  -- an agent of the map was in the table already, so loading adds none that is not
  have named : ∀ dn, dn ∈ entries.foldl (fun agents entry => agents.insert entry.1 (restored ambient entry.2))
      manager.dnMap ↔ names dn := by
    intro dn
    rw [OrderedMap.mem_foldl_insert, listed dn, or_iff_left_iff_imp]
    intro present
    obtain ⟨user, found⟩ := Option.isSome_iff_exists.mp (ExtTreeMap.mem_iff_isSome_getElem?.mp present)
    exact (known dn user found).1
  refine ⟨⟨?_, ?_⟩, named⟩
  · exact ⟨entries, stored, distinct, fun dn => (listed dn).trans (named dn).symm, users⟩
  · intro dn user present
    rw [OrderedMap.getElem?_foldl_insert, Option.or_eq_some_iff] at present
    -- an agent of the table is as the table has it, any other as the map had it
    obtain present | ⟨_, present⟩ := present
    · obtain ⟨entry, last, rfl⟩ := Option.map_eq_some_iff.mp present
      obtain ⟨member, same⟩ := List.mem_filter.mp (List.mem_of_getLast? last)
      obtain rfl := of_decide_eq_true same
      exact (users entry member).restored ambient
    · exact (known dn user present).2

end Operations

/-! ## Runs -/

instance (dn : String) (user : DNuser) : Decidable (Storable dn user) :=
  decidable_of_iff (user.dn = dn ∧ Quotable user.dn ∧ Quotable user.agentid ∧ Quotable user.reason ∧
      Quotable user.agentPwd ∧ Quotable user.skills ∧ Quotable user.peerIP ∧ HoldsInts user)
    ⟨fun ⟨ownKey, name, agentid, reason, agentPwd, skills, peerIP, ints⟩ =>
        ⟨ownKey, name, agentid, reason, agentPwd, skills, peerIP, ints⟩,
      fun ⟨ownKey, name, agentid, reason, agentPwd, skills, peerIP, ints⟩ =>
        ⟨ownKey, name, agentid, reason, agentPwd, skills, peerIP, ints⟩⟩

/-- The row of the agent can be written: its texts hold no quote, and the statement fits into `charsql`. -/
def Writable (lib : Libraries) (user : DNuser) : Prop :=
  Storable user.dn user ∧
    "Insert into  dnuser (strdn  ,strserize ) values('".utf8ByteSize + user.dn.utf8ByteSize + "','".utf8ByteSize +
      (user.serialize lib).utf8ByteSize + "') ".utf8ByteSize < 1024

instance (lib : Libraries) (user : DNuser) : Decidable (Writable lib user) :=
  inferInstanceAs (Decidable (_ ∧ _))

/-- The agent whose row an action writes. -/
def storedAgent (before : System) : Action → Option DNuser
  | .signin request ambient =>
    if before.manager.checkvaildDN request.agentDn && (before.manager.dnMap[request.agentDn]?).isNone then
      some ((DNuser.construct request ambient).inlineSetcompanyid
        (atoi (before.manager.getcompanyidbyDN request.agentDn)))
    else none
  | .setDNstatus agentId agentStatus _ =>
    if before.manager.getDNbyagentid agentId ≠ "" then
      (before.manager.dnMap[before.manager.getDNbyagentid agentId]?).map (DNuser.setagnetStatus agentStatus)
    else none
  | .acdDispatch _ _ =>
    (selectedDN before.acd).bind fun dn => (before.manager.dnMap[dn]?).map (storeStatus .ringing)
  | _ => none

/-- Every row that is written can be, calls go to agents in the map, and `data.db` opens at a start. -/
def KeepsRows (lib : Libraries) (before : System) : Happening → Prop
  | .operation action =>
    (∀ user ∈ storedAgent before action, Writable lib user) ∧ dispatchesUnknown before action = false
  | .restart _ opened _ => opened = true

instance (lib : Libraries) (before : System) (happening : Happening) :
    Decidable (KeepsRows lib before happening) := by
  cases happening with
  | operation action => exact inferInstanceAs (Decidable (_ ∧ _))
  | restart answers opened ambient => exact inferInstanceAs (Decidable (opened = true))

/-- The happening is a sign-in that puts the agent into the map. -/
def entersAgent (dn : String) (before : System) : Happening → Bool
  | .operation (.signin request _) =>
    request.agentDn == dn && before.manager.checkvaildDN dn && (before.manager.dnMap[dn]?).isNone
  | _ => false

/-- One operation keeps the mirror; a sign-in adds an agent of the company it looks up. -/
theorem mirrored_step {lib : Libraries} {company : String → Int → Prop} (copies : KeepsCopies lib)
    {before after : System} {action : Action} (admitted : KeepsRows lib before (.operation action))
    (taken : before.step lib action = some after)
    (enters : ∀ dn, entersAgent dn before (.operation action) = true →
      company dn (atoi (before.manager.getcompanyidbyDN dn)))
    (mirrored : Mirrored lib company before.manager) : Mirrored lib company after.manager := by
  obtain ⟨writable, knownDispatch⟩ := admitted
  cases took_of_step taken with
  | signin request ambient =>
    refine mirrored.signin copies request ambient fun valid absent => ?_
    have written : (DNuser.construct request ambient).inlineSetcompanyid
        (atoi (before.manager.getcompanyidbyDN request.agentDn)) ∈ storedAgent before
        (.signin request ambient) := by
      simp [storedAgent, valid, absent]
    -- the row that is written now is one of those the run admits
    have storable := (writable _ written).1
    exact { storable with company := enters request.agentDn (by simp [entersAgent, valid, absent]) }
  | signout agentId ambient => exact mirrored.signout copies agentId ambient
  | setDNstatus agentId agentStatus ambient =>
    simp only [ManagerDN.setDNstatus]
    split
    · rename_i named
      obtain ⟨user, found⟩ := mirrored.getDNbyagentid named
      have written := writable (user.setagnetStatus agentStatus) (by simp [storedAgent, named, found])
      exact mirrored.changeStatus copies found written.1.ints.2 ambient
    · exact mirrored
  | resetDNinfo agentid departmentId departmentName userName ambient =>
    exact mirrored.resetDNinfo agentid departmentId departmentName userName ambient
  | reloaddb reloaded =>
    obtain ⟨_, _, _, _, _, rfl⟩ := reloaddb_ok reloaded
    exact mirrored.of_eq rfl rfl
  | @loadDNSet opened ambient manager loaded =>
    cases opened with
    | true =>
      exact (loadDNSet_mirrored loaded copies mirrored.rows fun dn user present => mirrored.of_present present).1
    | false =>
      obtain rfl := Except.ok.inj loaded
      exact mirrored
  | event processed => exact mirrored.processEvent processed
  | incoming accepted =>
    have agents := nwayccCallback_dnMap accepted
    obtain ⟨_, _, ⟨_, rfl⟩ | ⟨_, _, _, _, rfl⟩⟩ := nwayccCallback_ok accepted
    · exact mirrored.of_eq rfl rfl
    · exact mirrored.of_eq rfl rfl
  | acdDispatch stands =>
    -- the chosen agent is in the map, so the row of a known agent changes
    simp only [dispatchesUnknown, stands, selectedDN, Option.any_some,
      Option.isNone_eq_false_iff] at knownDispatch
    obtain ⟨user, found⟩ := Option.isSome_iff_exists.mp knownDispatch
    exact mirrored.dispatch copies found _ _
  | _ => exact mirrored.of_eq rfl rfl

/-- A restart with an intact table starts from the agents in it. -/
theorem mirrored_restart {lib : Libraries} {company : String → Int → Prop} (copies : KeepsCopies lib)
    {before after : System} {answers : DatabaseAnswers} {ambient : Ambient}
    (restarted : before.restart lib answers true ambient = some after)
    (mirrored : Mirrored lib company before.manager) : Mirrored lib company after.manager := by
  obtain ⟨manager, loaded, rfl⟩ := toOption_map_eq_some restarted
  obtain ⟨_, _, _, _, _, loaded⟩ := loaddb_ok loaded
  -- a new process starts with an empty map
  refine (loadDNSet_mirrored loaded copies mirrored.rows fun dn user present => ?_).1
  rw [ExtTreeMap.getElem?_empty] at present
  contradiction

theorem mirrored_live {lib : Libraries} {company : String → Int → Prop} (copies : KeepsCopies lib)
    {before after : System} {happening : Happening} (admitted : KeepsRows lib before happening)
    (happened : before.live lib happening = some after)
    (enters : ∀ dn, entersAgent dn before happening = true →
      company dn (atoi (before.manager.getcompanyidbyDN dn)))
    (mirrored : Mirrored lib company before.manager) : Mirrored lib company after.manager := by
  cases happening with
  | operation action => exact mirrored_step copies admitted happened enters mirrored
  | restart answers opened ambient =>
    have isOpen : opened = true := admitted
    subst isOpen
    exact mirrored_restart copies happened mirrored

/-- One row for each agent, and no other. -/
def RowPerAgent (manager : ManagerDN) : Prop :=
  ∃ rows, manager.presisted = some rows ∧ (rows.map Prod.fst).Perm manager.dnMap.keys

/-- `LoadDNSet` in a fresh process finds exactly the agents of the map. -/
def RecoversAgents (lib : Libraries) (manager : ManagerDN) : Prop :=
  ∀ ambient, ∃ restarted, ManagerDN.loadDNSet lib true ambient { presisted := manager.presisted } =
    .ok restarted ∧
    ∀ dn, dn ∈ restarted.dnMap ↔ dn ∈ manager.dnMap

theorem Mirrored.rowPerAgent {lib : Libraries} {company : String → Int → Prop} {manager : ManagerDN}
    (mirrored : Mirrored lib company manager) : RowPerAgent manager := by
  obtain ⟨entries, stored, distinct, listed, _⟩ := mirrored.rows
  have names : (entries.map (persisted lib)).map Prod.fst = entries.map Prod.fst := by
    rw [List.map_map]
    rfl
  refine ⟨_, stored, ?_⟩
  rw [names, List.perm_ext_iff_of_nodup distinct ExtTreeMap.nodup_keys]
  exact fun dn => (listed dn).trans ExtTreeMap.mem_keys.symm

theorem Mirrored.recoversAgents {lib : Libraries} {company : String → Int → Prop} (copies : KeepsCopies lib)
    {manager : ManagerDN} (mirrored : Mirrored lib company manager) : RecoversAgents lib manager := by
  intro ambient
  have fresh : Rows lib company ({ presisted := manager.presisted } : ManagerDN).presisted
      (· ∈ manager.dnMap) :=
    mirrored.rows
  obtain ⟨restarted, loaded⟩ := loadDNSet_succeeds copies fresh ambient
  refine ⟨restarted, loaded, (loadDNSet_mirrored loaded copies fresh fun dn user present => ?_).2⟩
  rw [ExtTreeMap.getElem?_empty] at present
  contradiction

/-- In every run whose rows can be written, restarts included, the table has one row for each agent and
no other, and a restart recovers the agents. -/
theorem rows_follow_agents {lib : Libraries} (copies : KeepsCopies lib) {prefixNumber : String}
    {happenings : List Happening} {reached : System}
    (run : Run (Guarded (KeepsRows lib) (Steps (System.live lib))) (System.initial (some []) prefixNumber)
      happenings reached) : RowPerAgent reached.manager ∧ RecoversAgents lib reached.manager := by
  have mirrored : Mirrored lib (fun _ _ => True) reached.manager :=
    run.invariant (fun system => Mirrored lib (fun _ _ => True) system.manager)
      (fun _ _ _ step => mirrored_live copies step.1 step.2 fun _ _ => trivial) (mirrored_initial prefixNumber)
  exact ⟨mirrored.rowPerAgent, mirrored.recoversAgents copies⟩

/-- The routes and nodes of a start. -/
def companyAnswers : DatabaseAnswers where
  routes := { rows := companyRoutes }
  logins := { rows := [] }
  rules := { rows := [] }
  nodes := { rows := straightToAgent }

theorem rows_follow_agents_restart :
    let happenings : List Happening :=
      [.restart companyAnswers true noon, .operation (readyAgent "1001"), .operation (.signout "1001" noon)]
    let reached := finish (System.live workingLibraries) (System.initial (some []) "") happenings
    RowPerAgent reached.manager ∧ RecoversAgents workingLibraries reached.manager :=
  rows_follow_agents workingLibraries_keepsCopies (guardedRun_finish (by decide +kernel))

/-- A password with a quote. -/
def quotedPassword : SigninRequest where
  agentId          := "1001"
  agentDn          := "1001"
  agentPwd         := "o'hara"
  statusChangetype := AgentStatus.waitingReady.code
  autoAnswer       := false
  fcSignin         := false
  skills           := "sales"
  departmentId     := 1
  departmentName   := "sales"
  userName         := "1001"
  peerIP           := "10.0.0.7"

/-- The members of an object, in their order. -/
def objectMembers : Json → List (String × Json)
  | .object members => members
  | _ => []

theorem toList_serialize (user : DNuser) :
    (user.serialize workingLibraries).toList =
      "\x7b\n".toList ++ (printMembers (objectMembers (serializedRoot user)) ++ "\n\x7d\n".toList) := by
  have whole : user.serialize workingLibraries = toStyledString (serializedRoot user) := rfl
  obtain ⟨members, isObject⟩ : ∃ members, serializedRoot user = .object members := ⟨_, rfl⟩
  rw [whole, isObject]
  exact String.toList_ofList

/-- The statement that should write the row is ill-formed. -/
theorem quotedPassword_insertTable :
    insertTable workingLibraries ((DNuser.construct quotedPassword noon).inlineSetcompanyid 1) (some []) =
      (false, some []) := by
  let user := (DNuser.construct quotedPassword noon).inlineSetcompanyid 1
  have quoted : '\x27' ∈ (user.serialize workingLibraries).toList := by
    -- the quote of the password is printed as it is
    have inside : '\x27' ∈ printMembers (objectMembers (serializedRoot user)) := by decide +kernel
    simp [toList_serialize, inside]
  have noZero : '\x00' ∉ (user.serialize workingLibraries).toList := by
    have inside : '\x00' ∉ printMembers (objectMembers (serializedRoot user)) := by decide +kernel
    simp [toList_serialize, inside]
  exact insertTable_of_quote (by decide) quoted noZero []

theorem quoted_password_leaves_no_row :
    ¬ ∀ (lib : Libraries) (prefixNumber : String) (happenings : List Happening) (reached : System),
      KeepsCopies lib → Run (Steps (System.live lib))
        (System.initial (some []) prefixNumber) happenings reached →
      RowPerAgent reached.manager := by
  intro follows
  obtain ⟨loaded, loads, valid, absent, company, table⟩ :
      ∃ loaded, Run (Steps (System.live workingLibraries)) (System.initial (some []) "")
          [.operation (configured companyRoutes straightToAgent)] loaded ∧
        loaded.manager.checkvaildDN quotedPassword.agentDn = true ∧
        loaded.manager.dnMap[quotedPassword.agentDn]? = none ∧
        atoi (loaded.manager.getcompanyidbyDN quotedPassword.agentDn) = 1 ∧
        loaded.manager.presisted = some [] :=
    ⟨_, run_finish (by decide +kernel), by decide +kernel, by decide +kernel, by decide +kernel,
      by decide +kernel⟩
  have signsIn : Steps (System.live workingLibraries) loaded (.operation (.signin quotedPassword noon))
      { loaded with
        manager := (loaded.manager.signin workingLibraries quotedPassword noon).2
        history := System.recordSignin quotedPassword
          (loaded.manager.signin workingLibraries quotedPassword noon).1 loaded.history } := rfl
  -- the agent is in the map, and the table is still empty
  obtain ⟨rows, stored, listed⟩ := follows workingLibraries "" _ _ workingLibraries_keepsCopies
    (loads.append (.single signsIn))
  simp only [ManagerDN.signin, valid, absent, company, if_true, signalIfReady_presisted, table,
    quotedPassword_insertTable, signalIfReady_dnMap, Option.some.injEq] at stored listed
  subst stored
  have member : quotedPassword.agentDn ∈ loaded.manager.dnMap.insert quotedPassword.agentDn
      ((DNuser.construct quotedPassword noon).inlineSetcompanyid 1) := ExtTreeMap.mem_insert_self
  rw [← ExtTreeMap.mem_keys, ← listed.mem_iff] at member
  contradiction

end CallCenter.Verified
