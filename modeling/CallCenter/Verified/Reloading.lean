import CallCenter.Verified.Steps

/-!
# Reloading the configuration

What `reloaddb` leaves in the six stores of the configuration, compared with what `loaddb` gives
a fresh process: all of them agree but the company rules, which are inserted into the map that is
there.  A query that fails leaves a store that is cleared first with the rows it delivered.
-/

namespace CallCenter.Verified

open Std (ExtTreeMap)
open CallCenter.Foundation CallCenter.Model

/-- The stores a reload is about. -/
structure Configuration where
  gRoute : List Route
  agentRoute : ExtTreeMap String (List Agent)
  agentloginInfo : ExtTreeMap String String
  compyidDNrulemap : ExtTreeMap Int Int
  ivr : Managerivr

def configuration (manager : ManagerDN) : Configuration where
  gRoute := manager.gRoute
  agentRoute := manager.agentRoute
  agentloginInfo := manager.agentloginInfo
  compyidDNrulemap := manager.compyidDNrulemap
  ivr := manager.ivr

/-- The rule `acd_rule` has for a company: that of its first row. -/
def ruleOf (rows : List (Int × Int)) (company : Int) : Option Int :=
  (rows.find? fun row => row.1 = company).map Prod.snd

theorem getElem?_getDNchooserule (answer : Answer (Int × Int)) (dnRule : ExtTreeMap Int Int) (company : Int) :
    (getDNchooserule answer dnRule)[company]? = dnRule[company]?.or (ruleOf answer.rows company) :=
  OrderedMap.getElem?_foldl_insertIfNew Prod.fst Prod.snd answer.rows dnRule company

/-- The password the agent table has for an agent: that of its first row. -/
def passwdOf (rows : List (String × String)) (agentid : String) : Option String :=
  (rows.find? fun row => row.1 = agentid).map Prod.snd

theorem getElem?_getagentandpwd (answer : Answer (String × String)) (agents : ExtTreeMap String String)
    (agentid : String) :
    (getagentandpwd answer agents)[agentid]? = agents[agentid]?.or (passwdOf answer.rows agentid) :=
  OrderedMap.getElem?_foldl_insertIfNew Prod.fst Prod.snd answer.rows agents agentid

/-- A failure in the loop over the rows leaves the rows that were read. -/
theorem selectRouteAgent_routes (answer : Answer Route) (agents : ExtTreeMap String (List Agent))
    (vRoute : List Route) : (selectRouteAgent answer agents vRoute).2 = vRoute ++ answer.rows := by
  simp only [selectRouteAgent]
  split <;> rfl

theorem configuration_reloaddb {lib : Libraries} {answers : DatabaseAnswers} {manager after : ManagerDN}
    (reloaded : manager.reloaddb lib answers = .ok after) :
    ∃ ivr, initivrflow lib answers.nodes.rows {} = .ok ivr ∧ configuration after =
      { gRoute := (selectRouteAgent answers.routes ∅ []).2
        agentRoute := (selectRouteAgent answers.routes ∅ []).1
        agentloginInfo := getagentandpwd answers.logins ∅
        compyidDNrulemap := getDNchooserule answers.rules manager.compyidDNrulemap
        ivr } := by
  rw [ManagerDN.reloaddb] at reloaded
  obtain ⟨ivr, loaded, reloaded⟩ := Outcomes.bind_ok reloaded
  obtain rfl := Except.ok.inj reloaded
  exact ⟨ivr, loaded, rfl⟩

theorem configuration_loadDNSet {lib : Libraries} {opened : Bool} {ambient : Ambient}
    {manager after : ManagerDN} (loaded : manager.loadDNSet lib opened ambient = .ok after) :
    configuration after = configuration manager := by
  obtain ⟨_, _, _, rfl⟩ := loadDNSet_agentsOnly loaded
  rfl

theorem configuration_loaddb {lib : Libraries} {answers : DatabaseAnswers} {opened : Bool} {ambient : Ambient}
    {presisted : DnuserTable} {prefixNumber : String} {started : ManagerDN}
    (loaded : ManagerDN.loaddb lib answers opened ambient { presisted, prefixNumber } = .ok started) :
    ∃ ivr, initivrflow lib answers.nodes.rows {} = .ok ivr ∧ configuration started =
      { gRoute := (selectRouteAgent answers.routes ∅ []).2
        agentRoute := (selectRouteAgent answers.routes ∅ []).1
        agentloginInfo := getagentandpwd answers.logins ∅
        compyidDNrulemap := getDNchooserule answers.rules ∅
        ivr } := by
  rw [ManagerDN.loaddb] at loaded
  obtain ⟨ivr, initialised, loaded⟩ := Outcomes.bind_ok loaded
  exact ⟨ivr, initialised, configuration_loadDNSet loaded⟩

/-! ## A reload against a restart -/

/-- The rules already loaded are those the table has. -/
def RulesCurrent (rows : List (Int × Int)) (manager : ManagerDN) : Prop :=
  ∀ company rule, manager.compyidDNrulemap[company]? = some rule → ruleOf rows company = some rule

/-- Inserting into the old rules gives the new ones just when the old ones are among them. -/
theorem getDNchooserule_eq_iff {answer : Answer (Int × Int)} {manager : ManagerDN} :
    getDNchooserule answer manager.compyidDNrulemap = getDNchooserule answer ∅ ↔
      RulesCurrent answer.rows manager := by
  constructor
  · intro same company rule present
    have lookup := congrArg (fun dnRule : ExtTreeMap Int Int => dnRule[company]?) same
    simp only [getElem?_getDNchooserule, present] at lookup
    simpa using lookup.symm
  · intro current
    apply ExtTreeMap.ext_getElem?
    intro company
    simp only [getElem?_getDNchooserule, ExtTreeMap.getElem?_empty, Option.none_or]
    cases present : manager.compyidDNrulemap[company]? with
    | none => rfl
    | some rule => simp [current company rule present]

/-- A second reload from the same rows changes nothing. -/
theorem reloaddb_again {lib : Libraries} {answers : DatabaseAnswers} {manager after : ManagerDN}
    (reloaded : manager.reloaddb lib answers = .ok after) : after.reloaddb lib answers = .ok after := by
  rw [ManagerDN.reloaddb] at reloaded
  obtain ⟨ivr, loaded, reloaded⟩ := Outcomes.bind_ok reloaded
  obtain rfl := Except.ok.inj reloaded
  have again : getDNchooserule answers.rules (getDNchooserule answers.rules manager.compyidDNrulemap) =
      getDNchooserule answers.rules manager.compyidDNrulemap := by
    apply ExtTreeMap.ext_getElem?
    intro company
    simp [getElem?_getDNchooserule, Option.or_assoc]
  simp only [ManagerDN.reloaddb, loaded, again]
  rfl

/-- The four tables a reload reads. -/
structure Database where
  routes : List Route
  logins : List (String × String)
  rules : List (Int × Int)
  nodes : List IvrNode

/-- What the queries deliver when none of them fails. -/
def Database.answers (database : Database) : DatabaseAnswers where
  routes := { rows := database.routes }
  logins := { rows := database.logins }
  rules := { rows := database.rules }
  nodes := { rows := database.nodes }

/-- What is asked of a reload: the configuration of a restart, also when it is repeated. -/
def ActsAsRestart (lib : Libraries) (database : Database) (after started : ManagerDN) : Prop :=
  configuration after = configuration started ∧ after.reloaddb lib database.answers = .ok after

/-- A reload acts as a restart exactly when the rules that were loaded before are still the table's. -/
theorem reload_is_restart_iff {lib : Libraries} {database : Database} {manager after : ManagerDN}
    (reloaded : manager.reloaddb lib database.answers = .ok after) {opened : Bool} {ambient : Ambient}
    {presisted : DnuserTable} {prefixNumber : String} {started : ManagerDN}
    (restarted : ManagerDN.loaddb lib database.answers opened ambient { presisted, prefixNumber } =
      .ok started) :
    ActsAsRestart lib database after started ↔ RulesCurrent database.rules manager := by
  obtain ⟨ivr, loaded, shape⟩ := configuration_reloaddb reloaded
  obtain ⟨ivr', loaded', shape'⟩ := configuration_loaddb restarted
  rw [loaded, Except.ok.injEq] at loaded'
  subst loaded'
  have rules : getDNchooserule database.answers.rules manager.compyidDNrulemap =
      getDNchooserule database.answers.rules ∅ ↔ RulesCurrent database.rules manager := getDNchooserule_eq_iff
  rw [ActsAsRestart, shape, shape']
  simp only [reloaddb_again reloaded, Configuration.mk.injEq, true_and, and_true]
  exact rules

/-- One company with the rule "fewest calls". -/
def fewestCalls : Database where
  routes := [{ group := "4001", agent := "1001", groupId := "1", gataname := "ingw", prefixNumber := "88" }]
  logins := [("1001", "secret")]
  rules := [(1, 5)]
  nodes := []

/-- The manager of a process that loaded the rule table when it had these rows. -/
def ruledBy (rules : List (Int × Int)) : ManagerDN :=
  { compyidDNrulemap := getDNchooserule { rows := rules } ∅ }

theorem reload_is_restart_iff_unchanged :
    ∃ after started, (ruledBy [(1, 5)]).reloaddb lockedDatabase fewestCalls.answers = .ok after ∧
      ManagerDN.loaddb lockedDatabase fewestCalls.answers false noon {} = .ok started ∧
      (ActsAsRestart lockedDatabase fewestCalls after started ↔
        RulesCurrent fewestCalls.rules (ruledBy [(1, 5)])) :=
  ⟨_, _, rfl, rfl, @reload_is_restart_iff lockedDatabase fewestCalls
    (ruledBy [(1, 5)]) _ rfl false noon none "" _ rfl⟩

/-- The company's rule was changed in the table, and the reload keeps the old one. -/
theorem reload_keeps_old_rule :
    ¬ ∀ (manager after started : ManagerDN) (database : Database),
      manager.reloaddb lockedDatabase database.answers = .ok after →
      ManagerDN.loaddb lockedDatabase database.answers false noon {} = .ok started →
      ActsAsRestart lockedDatabase database after started := by
  intro acts
  have same := (acts (ruledBy [(1, 0)]) _ _ fewestCalls rfl rfl).1
  have rules := congrArg (fun stores : Configuration => stores.compyidDNrulemap[(1 : Int)]?) same
  revert rules
  decide +kernel

/-! ## A reload whose queries fail -/

/-- A query over these rows delivered some of them, all unless it failed. -/
def Delivers {Row : Type} (answer : Answer Row) (rows : List Row) : Prop :=
  answer.rows <+: rows ∧ (answer.completed = true → answer.rows = rows)

structure DeliversAll (answers : DatabaseAnswers) (database : Database) : Prop where
  routes : Delivers answers.routes database.routes
  logins : Delivers answers.logins database.logins
  rules : Delivers answers.rules database.rules
  nodes : Delivers answers.nodes database.nodes

/-- What a reload leaves in the stores it clears first: what the delivered rows give, so the new content
where the query completed, and nothing of what was there before. -/
structure LeftByReload (lib : Libraries) (answers : DatabaseAnswers) (database : Database)
    (after : ManagerDN) : Prop where
  routes : after.gRoute = answers.routes.rows ∧ after.gRoute <+: database.routes
  agents : after.agentRoute =
    if answers.routes.completed then (selectRouteAgent { rows := database.routes } ∅ []).1 else ∅
  logins : ∀ agentid, after.agentloginInfo[agentid]? = passwdOf answers.logins.rows agentid
  newLogins : ∀ agentid passwd, after.agentloginInfo[agentid]? = some passwd →
    passwdOf database.logins agentid = some passwd
  ivr : initivrflow lib answers.nodes.rows {} = .ok after.ivr
  allRoutes : answers.routes.completed = true → after.gRoute = database.routes
  allLogins : answers.logins.completed = true →
    after.agentloginInfo = getagentandpwd { rows := database.logins } ∅
  allNodes : answers.nodes.completed = true → initivrflow lib database.nodes {} = .ok after.ivr

/-- Whatever fails during a reload, each store that it clears is what the delivered rows make it. -/
theorem left_by_reload {lib : Libraries} {answers : DatabaseAnswers} {database : Database}
    (delivers : DeliversAll answers database) {manager after : ManagerDN}
    (reloaded : manager.reloaddb lib answers = .ok after) :
    LeftByReload lib answers database after := by
  obtain ⟨ivr, loaded, shape⟩ := configuration_reloaddb reloaded
  -- each store is what its loader makes of the delivered rows
  have gRoute : after.gRoute = answers.routes.rows :=
    (congrArg Configuration.gRoute shape).trans (selectRouteAgent_routes answers.routes ∅ [])
  have agentRoute : after.agentRoute = (selectRouteAgent answers.routes ∅ []).1 :=
    congrArg Configuration.agentRoute shape
  have logins : after.agentloginInfo = getagentandpwd answers.logins ∅ :=
    congrArg Configuration.agentloginInfo shape
  have nodes : initivrflow lib answers.nodes.rows {} = .ok after.ivr := by
    have sameIvr : after.ivr = ivr := congrArg Configuration.ivr shape
    rw [sameIvr, loaded]
  have login : ∀ agentid, after.agentloginInfo[agentid]? = passwdOf answers.logins.rows agentid := by
    intro agentid
    rw [logins, getElem?_getagentandpwd]
    simp
  constructor
  case routes => exact ⟨gRoute, gRoute ▸ delivers.routes.1⟩
  case agents =>
    rw [agentRoute]
    cases completed : answers.routes.completed with
    | false => simp [selectRouteAgent, completed]
    | true => simp [selectRouteAgent, completed, delivers.routes.2 completed]
  case logins => exact login
  case newLogins =>
    intro agentid passwd present
    rw [login] at present
    obtain ⟨row, found, rfl⟩ := Option.map_eq_some_iff.mp present
    -- the delivered rows are the first of the table, so the first that matches is the same
    rw [passwdOf, delivers.logins.1.find?_eq_some found]
    rfl
  case ivr => exact nodes
  case allRoutes =>
    intro completed
    rw [gRoute, delivers.routes.2 completed]
  case allLogins =>
    intro completed
    rw [logins, ← delivers.logins.2 completed]
    rfl
  case allNodes =>
    intro completed
    rw [← delivers.nodes.2 completed]
    exact nodes

/-- The route query fails before its first row, all others complete. -/
def routesFail (database : Database) : DatabaseAnswers :=
  { database.answers with routes := { rows := [], completed := false } }

theorem routesFail_delivers (database : Database) : DeliversAll (routesFail database) database where
  routes := ⟨List.nil_prefix, fun completed => nomatch completed⟩
  logins := ⟨List.prefix_rfl, fun _ => rfl⟩
  rules := ⟨List.prefix_rfl, fun _ => rfl⟩
  nodes := ⟨List.prefix_rfl, fun _ => rfl⟩

theorem left_by_reload_routes :
    ∃ after, (ruledBy [(1, 0)]).reloaddb lockedDatabase (routesFail fewestCalls) = .ok after ∧
      LeftByReload lockedDatabase (routesFail fewestCalls) fewestCalls after :=
  ⟨_, rfl, left_by_reload (routesFail_delivers fewestCalls) rfl⟩

/-- What is asked of a reload with failures: each store is the complete new one, or the old one. -/
structure KeptOrReplaced (lib : Libraries) (database : Database) (before after : ManagerDN) : Prop where
  routes : after.gRoute = before.gRoute ∨ after.gRoute = database.routes
  agents : after.agentRoute = before.agentRoute ∨
    after.agentRoute = (selectRouteAgent { rows := database.routes } ∅ []).1
  logins : after.agentloginInfo = before.agentloginInfo ∨
    after.agentloginInfo = getagentandpwd { rows := database.logins } ∅
  rules : after.compyidDNrulemap = before.compyidDNrulemap ∨
    after.compyidDNrulemap = getDNchooserule { rows := database.rules } ∅
  ivr : after.ivr = before.ivr ∨ initivrflow lib database.nodes {} = .ok after.ivr

/-- The route query fails, and the routing table that was loaded is gone. -/
theorem failed_reload_clears_routes :
    ¬ ∀ (answers : DatabaseAnswers) (database : Database) (before after : ManagerDN),
      DeliversAll answers database → before.reloaddb lockedDatabase answers = .ok after →
      KeptOrReplaced lockedDatabase database before after := by
  intro keeps
  have routes := (keeps _ fewestCalls { gRoute := fewestCalls.routes } _
      (routesFail_delivers fewestCalls) rfl).routes
  revert routes
  decide +kernel

end CallCenter.Verified
