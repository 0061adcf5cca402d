import CallCenter.Model.Ivr

/-!
# IVR navigation follows the configured script

`directAnswer` interprets the rows of the script directly: look the node up, find the last
usable entry for the key, look its target up.  The program instead computes two tables ahead
of time and answers from them.  `navigation_refines_script` connects the two, by way of what
the grouping loop leaves in the node table (`groupRows_node`) and what the second pass leaves
in the flow table (`initivrflow_flow`).
-/

namespace CallCenter.Verified

open Std (ExtTreeMap)
open CallCenter.Foundation CallCenter.Model

/-! ## The script and its direct interpretation -/

/-- The rows of each company stand together: after its own run no row's company comes back. -/
def Contiguous : List IvrNode → Prop
  | [] => True
  | row :: rest =>
    (∀ later ∈ rest.dropWhile (fun sec => sec.companyId == row.companyId),
      later.companyId ≠ row.companyId) ∧ Contiguous rest

/-- A script entry: an object whose `node` is an int (`isInt`) and whose `dtmf` is a string. -/
def asEntry : Json → Option (Int × String)
  | .object members =>
    match members.lookup "node", members.lookup "dtmf" with
    | some (.int node), some (.string dtmf) =>
      if Json.inIntRange node then some (node, dtmf) else none
    | _, _ => none
  | _ => none

/-- The text is empty, or an array of script entries. -/
def IsScript (lib : Libraries) (userWord : String) : Prop :=
  userWord = "" ∨ ∃ elements, lib.parse userWord = some (.array elements) ∧
    ∀ element ∈ elements, (asEntry element).isSome

/-- What the navigation is promised of its rows. -/
structure WellFormedScript (lib : Libraries) (rows : List IvrNode) : Prop where
  contiguous : Contiguous rows
  distinct : (rows.map fun row => (row.companyId, row.nodeId)).Nodup
  noAgentRow : ∀ row ∈ rows, row.nodeId ≠ ivrAgentFlowIndex
  scripts : ∀ row ∈ rows, IsScript lib row.userWord

/-- The node a company's script has under a number; the agent node belongs to every company. -/
def scriptNode (rows : List IvrNode) (company node : Int) : Option IvrNode :=
  if rows.any fun row => row.companyId == company then
    if node = ivrAgentFlowIndex then some (agentNode company)
    else rows.find? fun row => row.companyId == company && row.nodeId == node
  else none

/-- The entries of a node's `user_word`, in order. -/
def scriptEntries (lib : Libraries) (row : IvrNode) : List (Int × String) :=
  match lib.parse row.userWord with
  | some root => root.children.filterMap asEntry
  | none => []

/-- Where an entry leads: key `0` always to the agent node. -/
def entryTarget (entry : Int × String) : Int :=
  if entry.2 = "0" then ivrAgentFlowIndex else entry.1

/-- An entry counts if it is for key `0` or its node exists in the company. -/
def usable (rows : List IvrNode) (company : Int) (entry : Int × String) : Bool :=
  entry.2 = "0" || (scriptNode rows company entry.1).isSome

/-- The answer to a key press read off the script. -/
def directAnswer (lib : Libraries) (rows : List IvrNode) (company node : Int) (dtmf : String) :
    Option IvrNode :=
  match scriptNode rows company node with
  | none => none
  | some row =>
    if dtmf = ivrAnsDftm then some row
    else
      let key := if dtmf = "#" then "" else dtmf
      let fitting := (scriptEntries lib row).filter fun entry =>
        entry.2 = key && usable rows company entry
      fitting.getLast?.bind fun entry => scriptNode rows company (entryTarget entry)

/-! ## The grouping loop -/

theorem Contiguous.dropWhile {rows : List IvrNode} (contiguous : Contiguous rows)
    (p : IvrNode → Bool) : Contiguous (rows.dropWhile p) := by
  induction rows with
  | nil => exact contiguous
  | cons row rest inductionHypothesis =>
    rw [List.dropWhile_cons]
    split
    · exact inductionHypothesis contiguous.2
    · exact contiguous

/-- The run taken off the front holds all rows of its company. -/
theorem filter_of_contiguous {ite : IvrNode} {rest : List IvrNode} (contiguous : Contiguous (ite :: rest)) :
    (ite :: rest).filter (fun row => row.companyId == ite.companyId) =
      (ite :: rest).takeWhile fun row => row.companyId == ite.companyId := by
  let same := fun row : IvrNode => row.companyId == ite.companyId
  have others : ((ite :: rest).dropWhile same).filter same = [] := by
    apply List.filter_eq_nil_iff.mpr
    intro row member
    rw [List.dropWhile_cons_of_pos (by simp [same])] at member
    simpa [same] using contiguous.1 row member
  have run : ((ite :: rest).takeWhile same).filter same = (ite :: rest).takeWhile same :=
    List.filter_eq_self.mpr fun row member => List.mem_takeWhile_imp member
  conv_lhs => rw [← List.takeWhile_append_dropWhile (p := same) (l := ite :: rest)]
  rw [List.filter_append, others, run, List.append_nil]

/-- Another company's rows all lie behind the run taken off the front. -/
theorem filter_dropWhile_of_ne {rows : List IvrNode} {company first : Int} (different : company ≠ first) :
    (rows.dropWhile fun row => row.companyId == first).filter (fun row => row.companyId == company) =
      rows.filter fun row => row.companyId == company := by
  have run : (rows.takeWhile fun row => row.companyId == first).filter
      (fun row => row.companyId == company) = [] := by
    apply List.filter_eq_nil_iff.mpr
    intro row member
    have inRun := List.mem_takeWhile_imp member
    simp only [beq_iff_eq] at inRun ⊢
    rw [inRun]
    exact fun same => different same.symm
  conv_rhs => rw [← List.takeWhile_append_dropWhile (p := fun row => row.companyId == first) (l := rows)]
  rw [List.filter_append, run, List.nil_append]

theorem any_eq_of_filter_eq {rows others : List IvrNode} {p : IvrNode → Bool}
    (same : rows.filter p = others.filter p) : rows.any p = others.any p := by
  rw [Bool.eq_iff_iff, List.any_eq_true, List.any_eq_true]
  constructor <;> rintro ⟨row, member, met⟩
  · have kept := List.mem_filter.mpr ⟨member, met⟩
    exact ⟨row, (List.mem_filter.mp (same ▸ kept)).1, met⟩
  · have kept := List.mem_filter.mpr ⟨member, met⟩
    exact ⟨row, (List.mem_filter.mp (same ▸ kept)).1, met⟩

/-- The grouping loop builds each company's table from exactly its own rows. -/
theorem groupRows_company (fuel : Nat) {rows : List IvrNode} (contiguous : Contiguous rows)
    (enough : rows.length ≤ fuel) (table : ExtTreeMap Int CompanyTable) (company : Int) :
    (groupRows fuel rows table)[company]? =
      if rows.any (fun row => row.companyId == company) then
        some (oneNodeTable company (rows.filter fun row => row.companyId == company))
      else table[company]? := by
  induction fuel generalizing rows table with
  | zero =>
    have none : rows = [] := List.length_eq_zero_iff.mp (by omega)
    simp [none, groupRows]
  | succ fuel inductionHypothesis =>
    cases rows with
    | nil => simp [groupRows]
    | cons ite rest =>
      have shorter : ((ite :: rest).dropWhile fun row => row.companyId == ite.companyId).length ≤ fuel := by
        rw [List.dropWhile_cons_of_pos (by simp)]
        exact (List.dropWhile_sublist _).length_le.trans (by simpa using enough)
      rw [groupRows, inductionHypothesis (contiguous.dropWhile _) shorter]
      by_cases own : company = ite.companyId
      · subst own
        have gone : ((ite :: rest).dropWhile fun row => row.companyId == ite.companyId).any
            (fun row => row.companyId == ite.companyId) = false := by
          rw [List.dropWhile_cons_of_pos (by simp)]
          simpa [List.any_eq_false] using contiguous.1
        rw [gone]
        simp [filter_of_contiguous contiguous]
      · rw [filter_dropWhile_of_ne own]
        have behind : ((ite :: rest).dropWhile fun row => row.companyId == ite.companyId).any
            (fun row => row.companyId == company) =
            (ite :: rest).any fun row => row.companyId == company := by
          exact any_eq_of_filter_eq (filter_dropWhile_of_ne own)
        rw [behind]
        have elsewhere : ite.companyId ≠ company := fun same => own same.symm
        simp [ExtTreeMap.getElem?_insert, elsewhere]

/-! ## The node table -/

/-- Rows with distinct keys hold at most one row of a key, so the last is the first. -/
theorem getLast?_filter_eq_find? {Key : Type} [DecidableEq Key] {key : IvrNode → Key} {asked : Key}
    {rows : List IvrNode} (distinct : (rows.map key).Nodup) :
    (rows.filter fun row => key row = asked).getLast? = rows.find? fun row => key row = asked := by
  induction rows with
  | nil => rfl
  | cons row rest inductionHypothesis =>
    rw [List.map_cons, List.nodup_cons] at distinct
    by_cases same : key row = asked
    · have others : (rest.filter fun row => key row = asked) = [] := by
        apply List.filter_eq_nil_iff.mpr
        intro other member
        simp only [decide_eq_true_eq]
        intro equal
        exact distinct.1 (List.mem_map.mpr ⟨other, member, equal.trans same.symm⟩)
      rw [List.filter_cons_of_pos (by simpa using same), others, List.find?_cons_of_pos (by simpa using same)]
      rfl
    · rw [List.filter_cons_of_neg (by simpa using same), List.find?_cons_of_neg (by simpa using same)]
      exact inductionHypothesis distinct.2

/-- What the node table answers is what the script has under the number. -/
theorem groupRows_node {lib : Libraries} {rows : List IvrNode} (wellFormed : WellFormedScript lib rows)
    (company node : Int) :
    ((groupRows rows.length rows ∅)[company]?.bind fun nodes => nodes[node]?) =
      scriptNode rows company node := by
  rw [groupRows_company rows.length wellFormed.contiguous le_rfl]
  unfold scriptNode
  split
  · rw [Option.bind_some, oneNodeTable, OrderedMap.getElem?_foldl_insert, List.filter_filter]
    have pairs : (rows.filter fun row => decide (row.nodeId = node) && row.companyId == company) =
        rows.filter fun row => (row.companyId, row.nodeId) = (company, node) := by
      apply List.filter_congr
      intro row _
      simp [Bool.and_comm, beq_eq_decide]
    rw [pairs, getLast?_filter_eq_find? wellFormed.distinct]
    have spelled : (fun row : IvrNode => decide ((row.companyId, row.nodeId) = (company, node))) =
        fun row => row.companyId == company && row.nodeId == node := by
      funext row
      simp [beq_eq_decide]
    rw [spelled]
    by_cases agent : node = ivrAgentFlowIndex
    · have missing : (rows.find? fun row => row.companyId == company && row.nodeId == node) = none := by
        apply List.find?_eq_none.mpr
        intro row member
        have elsewhere := wellFormed.noAgentRow row member
        simp [agent, elsewhere]
      rw [missing]
      simp [agent]
    · have fresh : ((∅ : CompanyTable).insert ivrAgentFlowIndex (agentNode company))[node]? = none := by
        simp [Ne.symm agent]
      simp [fresh, agent]
  · simp

/-- Every node of a company's table stands under its own number. -/
theorem groupRows_nodeId {lib : Libraries} {rows : List IvrNode} (wellFormed : WellFormedScript lib rows)
    {company node : Int} {nodes : CompanyTable} {row : IvrNode}
    (ofCompany : (groupRows rows.length rows ∅)[company]? = some nodes) (found : nodes[node]? = some row) :
    row.nodeId = node := by
  have answer := groupRows_node wellFormed company node
  rw [ofCompany, Option.bind_some, found] at answer
  unfold scriptNode at answer
  split at answer
  · split at answer
    · rename_i agent
      cases answer
      exact agent.symm
    · have met := List.find?_some answer.symm
      simp only [Bool.and_eq_true, beq_iff_eq] at met
      exact met.2
  · contradiction

/-- The text of every node in the table is a script. -/
theorem groupRows_script {lib : Libraries} {rows : List IvrNode} (wellFormed : WellFormedScript lib rows)
    {company node : Int} {nodes : CompanyTable} {row : IvrNode}
    (ofCompany : (groupRows rows.length rows ∅)[company]? = some nodes) (found : nodes[node]? = some row) :
    IsScript lib row.userWord := by
  have answer := groupRows_node wellFormed company node
  rw [ofCompany, Option.bind_some, found] at answer
  unfold scriptNode at answer
  split at answer
  · split at answer
    · cases answer
      exact .inl rfl
    · exact wellFormed.scripts row (List.mem_of_find?_eq_some answer.symm)
  · contradiction

/-! ## The flow of one node -/

/-- The effect of one script entry on the successors, without failures. -/
def insertUsable (companyId : Int) (nodes : CompanyTable) (next : ExtTreeMap String NodePointer)
    (entry : Int × String) : ExtTreeMap String NodePointer :=
  if entry.2 = "0" ∨ entry.1 ∈ nodes then next.insert entry.2 ⟨companyId, entryTarget entry⟩ else next

theorem addEntry_of_asEntry {companyId : Int} {nodes : CompanyTable} {next : ExtTreeMap String NodePointer}
    {element : Json} {entry : Int × String} (isEntry : asEntry element = some entry) :
    addEntry companyId nodes next element = .ok (insertUsable companyId nodes next entry) := by
  unfold asEntry at isEntry
  split at isEntry
  · rename_i members
    split at isEntry
    · rename_i node dtmf isNode isDtmf
      split at isEntry
      · rename_i inRange
        cases isEntry
        simp only [addEntry, Json.member, isNode, isDtmf, Option.getD_some, Json.asInt, inRange, if_true,
          Json.asString, bind, Except.bind, pure, Except.pure, insertUsable, entryTarget]
        by_cases zero : dtmf = "0"
        · simp [zero]
        · by_cases present : node ∈ nodes <;> simp [zero, present]
      · contradiction
    · contradiction
  · contradiction

theorem foldlM_addEntry {companyId : Int} {nodes : CompanyTable} {elements : List Json}
    (script : ∀ element ∈ elements, (asEntry element).isSome) (next : ExtTreeMap String NodePointer) :
    elements.foldlM (addEntry companyId nodes) next =
      .ok ((elements.filterMap asEntry).foldl (insertUsable companyId nodes) next) := by
  induction elements generalizing next with
  | nil => rfl
  | cons element elements inductionHypothesis =>
    obtain ⟨entry, isEntry⟩ := Option.isSome_iff_exists.mp (script element List.mem_cons_self)
    rw [List.foldlM_cons, addEntry_of_asEntry isEntry, List.filterMap_cons_some isEntry]
    exact inductionHypothesis (fun other member => script other (List.mem_cons_of_mem _ member)) _

/-- The flow of a node whose text is a script. -/
def scriptFlow (lib : Libraries) (companyId : Int) (nodes : CompanyTable) (row : IvrNode) : FlowNode where
  current := some ⟨companyId, row.nodeId⟩
  next := (scriptEntries lib row).foldl (insertUsable companyId nodes) ∅

theorem flowNode_of_script {lib : Libraries} (empty : lib.parse "" = none) {companyId : Int}
    {nodes : CompanyTable} {row : IvrNode} (script : IsScript lib row.userWord) :
    flowNode lib companyId nodes (row.nodeId, row) = .ok (scriptFlow lib companyId nodes row) := by
  rcases script with blank | ⟨elements, parsed, entries⟩
  · simp only [flowNode, scriptFlow, scriptEntries, blank, empty, lib.read_empty empty]
    rfl
  · simp only [flowNode, scriptFlow, scriptEntries, parsed, lib.read_of_parse parsed, Json.children,
      foldlM_addEntry entries, bind, Except.bind]
    rfl

/-- The successor for a key is the target of the last usable entry for it. -/
theorem scriptFlow_next (lib : Libraries) (companyId : Int) (nodes : CompanyTable) (row : IvrNode)
    (key : String) :
    (scriptFlow lib companyId nodes row).next[key]? =
      (((scriptEntries lib row).filter fun entry =>
        entry.2 = key && (entry.2 = "0" || decide (entry.1 ∈ nodes))).getLast?.map
          fun entry => ⟨companyId, entryTarget entry⟩) := by
  have asFold : ∀ entries : List (Int × String), ∀ next : ExtTreeMap String NodePointer,
      entries.foldl (insertUsable companyId nodes) next =
        (entries.filter fun entry => entry.2 = "0" || decide (entry.1 ∈ nodes)).foldl
          (fun next entry => next.insert entry.2 ⟨companyId, entryTarget entry⟩) next := by
    intro entries next
    rw [List.foldl_filter]
    congr 1
    funext next entry
    simp [insertUsable]
  rw [scriptFlow, asFold, OrderedMap.getElem?_foldl_insert, List.filter_filter]
  simp

/-! ## The flow table -/

/-- The nodes of all companies, in the order the second pass visits them. -/
def allNodes (table : ExtTreeMap Int CompanyTable) : List ((Int × CompanyTable) × IvrNode) :=
  table.toList.flatMap fun company => company.2.toList.map fun node => (company, node.2)

theorem mem_allNodes {table : ExtTreeMap Int CompanyTable} {company : Int} {nodes : CompanyTable}
    {row : IvrNode} : ((company, nodes), row) ∈ allNodes table ↔
      table[company]? = some nodes ∧ ∃ node : Int, nodes[node]? = some row := by
  simp only [allNodes, List.mem_flatMap, List.mem_map, Prod.mk.injEq]
  constructor
  · rintro ⟨⟨_, _⟩, ofCompany, ⟨node, _⟩, ofNode, same, rfl⟩
    cases same
    exact ⟨OrderedMap.mem_toList_iff.mp ofCompany, node, OrderedMap.mem_toList_iff.mp ofNode⟩
  · rintro ⟨ofCompany, node, ofNode⟩
    exact ⟨(company, nodes), OrderedMap.mem_toList_iff.mpr ofCompany, (node, row),
      OrderedMap.mem_toList_iff.mpr ofNode, rfl, rfl⟩

/-- The key a node's flow is stored under. -/
def flowKey (entry : (Int × CompanyTable) × IvrNode) : String := underscored entry.1.1 entry.2.nodeId

/-- The flow stored there. -/
def flowAt (lib : Libraries) (entry : (Int × CompanyTable) × IvrNode) : FlowNode :=
  scriptFlow lib entry.1.1 entry.1.2 entry.2

/-- The flow table of a script: one loop over all nodes. -/
def scriptFlows (lib : Libraries) (table : ExtTreeMap Int CompanyTable) : ExtTreeMap String FlowNode :=
  (allNodes table).foldl (fun flows entry => flows.insert (flowKey entry) (flowAt lib entry)) ∅

/-- On a script `Initivrflow` succeeds, and leaves these two tables. -/
theorem initivrflow_of_script {lib : Libraries} (empty : lib.parse "" = none) {rows : List IvrNode}
    (wellFormed : WellFormedScript lib rows) :
    initivrflow lib rows {} = .ok
      { ivrNodetable := groupRows rows.length rows ∅
        flowtable := scriptFlows lib (groupRows rows.length rows ∅) } := by
  have oneCompany : ∀ company ∈ (groupRows rows.length rows ∅).toList, ∀ flows,
      companyFlows lib flows company = .ok (company.2.toList.foldl
        (fun flows node => flows.insert (underscored company.1 node.2.nodeId)
          (scriptFlow lib company.1 company.2 node.2)) flows) := by
    rintro ⟨company, nodes⟩ ofCompany flows
    refine OrderedMap.foldlM_ok ?_ flows
    rintro ⟨node, row⟩ ofNode flows
    have inTable := OrderedMap.mem_toList_iff.mp ofCompany
    have inNodes := OrderedMap.mem_toList_iff.mp ofNode
    have script := groupRows_script wellFormed inTable inNodes
    rw [← groupRows_nodeId wellFormed inTable inNodes, flowNode_of_script empty script]
    rfl
  simp only [initivrflow, OrderedMap.foldlM_ok oneCompany, scriptFlows, allNodes, List.foldl_flatMap,
    List.foldl_map]
  rfl

/-- In a company whose rows are found by their own numbers, the key text names one entry. -/
theorem entry_of_flowKey {table : ExtTreeMap Int CompanyTable} {company node : Int} {nodes : CompanyTable}
    {row : IvrNode} (numbers : ∀ (node : Int) row, nodes[node]? = some row → row.nodeId = node)
    (ofCompany : table[company]? = some nodes) (found : nodes[node]? = some row)
    {other : (Int × CompanyTable) × IvrNode} (member : other ∈ allNodes table)
    (sameKey : flowKey other = flowKey ((company, nodes), row)) : other = ((company, nodes), row) := by
  obtain ⟨⟨otherCompany, otherNodes⟩, otherRow⟩ := other
  obtain ⟨sameCompany, sameNode⟩ := underscored_inj.mp sameKey
  obtain ⟨otherOfCompany, otherNode, otherFound⟩ := mem_allNodes.mp member
  simp only at sameCompany sameNode
  subst sameCompany
  rw [ofCompany] at otherOfCompany
  cases otherOfCompany
  rw [← numbers _ _ otherFound, sameNode, numbers _ _ found, found] at otherFound
  cases otherFound
  rfl

/-- The key text leads back to the node it was built for. -/
theorem flowtable_of_script {lib : Libraries} {rows : List IvrNode} (wellFormed : WellFormedScript lib rows)
    {company node : Int} {nodes : CompanyTable} {row : IvrNode}
    (ofCompany : (groupRows rows.length rows ∅)[company]? = some nodes) (found : nodes[node]? = some row) :
    (scriptFlows lib (groupRows rows.length rows ∅))[underscored company node]? =
      some (scriptFlow lib company nodes row) := by
  have number := groupRows_nodeId wellFormed ofCompany found
  have listed := mem_allNodes.mpr ⟨ofCompany, node, found⟩
  have agree : ∀ other ∈ allNodes (groupRows rows.length rows ∅),
      flowKey other = flowKey ((company, nodes), row) →
        flowAt lib other = flowAt lib ((company, nodes), row) := by
    intro other member sameKey
    rw [entry_of_flowKey (fun _ _ => groupRows_nodeId wellFormed ofCompany) ofCompany found member sameKey]
  have last := OrderedMap.getElem?_foldl_insert_of_mem ∅ listed agree
  rw [flowKey, number] at last
  exact last

/-! ## The two together -/

/-- The successor in the flow table is the last fitting entry of the script. -/
theorem successor {lib : Libraries} {rows : List IvrNode} (wellFormed : WellFormedScript lib rows)
    {company : Int} {nodes : CompanyTable} (ofCompany : (groupRows rows.length rows ∅)[company]? = some nodes)
    (row : IvrNode) (key : String) :
    (scriptFlow lib company nodes row).next[key]?.bind
        (Managerivr.mk (groupRows rows.length rows ∅) (scriptFlows lib (groupRows rows.length rows ∅))).node? =
      ((scriptEntries lib row).filter fun entry => entry.2 = key && usable rows company entry).getLast?.bind
        fun entry => scriptNode rows company (entryTarget entry) := by
  have answers := groupRows_node wellFormed company
  -- what counts as usable in the table is what counts as usable in the script
  have sameEntries : (fun entry : Int × String => entry.2 = "0" || decide (entry.1 ∈ nodes)) =
      usable rows company := by
    funext entry
    unfold usable
    congr 1
    rw [← answers entry.1, ofCompany, Option.bind_some, Bool.eq_iff_iff, decide_eq_true_eq]
    exact ExtTreeMap.mem_iff_isSome_getElem?
  rw [scriptFlow_next, Option.bind_map]
  simp only [congrFun sameEntries]
  congr 1
  funext entry
  exact answers (entryTarget entry)

theorem getnodeinfo_eq_directAnswer {lib : Libraries} {rows : List IvrNode}
    (wellFormed : WellFormedScript lib rows) (company node : Int) (dtmf : String) :
    (Managerivr.mk (groupRows rows.length rows ∅)
      (scriptFlows lib (groupRows rows.length rows ∅))).getnodeinfo company node dtmf =
        directAnswer lib rows company node dtmf := by
  have answers := groupRows_node wellFormed company
  unfold directAnswer Managerivr.getnodeinfo
  rw [← answers node]
  cases ofCompany : (groupRows rows.length rows ∅)[company]? with
  | none => rfl
  | some nodes =>
    cases found : nodes[node]? with
    | none => simp [found]
    | some row =>
      have number := groupRows_nodeId wellFormed ofCompany found
      simp only [found, Option.bind_some, flowtable_of_script wellFormed ofCompany found, Option.getD_some]
      by_cases answered : dtmf = ivrAnsDftm
      · simp [answered, scriptFlow, Managerivr.node?, ofCompany, number, found]
      · simp only [answered, if_false]
        split
        · exact successor wellFormed ofCompany row ""
        · exact successor wellFormed ofCompany row dtmf

/-- The script has no entries for the agent node. -/
theorem directAnswer_agent {lib : Libraries} (empty : lib.parse "" = none) {rows : List IvrNode}
    (company : Int) {dtmf : String} (pressed : dtmf ≠ ivrAnsDftm) :
    directAnswer lib rows company ivrAgentFlowIndex dtmf = none := by
  unfold directAnswer
  split
  · rfl
  · rename_i row isNode
    have agent : row = agentNode company := by
      unfold scriptNode at isNode
      split at isNode
      · simpa using isNode.symm
      · contradiction
    simp [pressed, agent, scriptEntries, agentNode, empty]

/-- After `Initivrflow` on a well-formed script `Getnodeinfo` answers as the script says, and the
agent node leads nowhere. -/
theorem navigation_refines_script {lib : Libraries} (empty : lib.parse "" = none) {rows : List IvrNode}
    (wellFormed : WellFormedScript lib rows) :
    ∃ ivr, initivrflow lib rows {} = .ok ivr ∧
      (∀ company node dtmf,
        ivr.getnodeinfo company node dtmf = directAnswer lib rows company node dtmf) ∧
      ∀ company dtmf, dtmf ≠ ivrAnsDftm → ivr.getnodeinfo company ivrAgentFlowIndex dtmf = none := by
  refine ⟨_, initivrflow_of_script empty wellFormed, getnodeinfo_eq_directAnswer wellFormed, ?_⟩
  intro company dtmf pressed
  rw [getnodeinfo_eq_directAnswer wellFormed, directAnswer_agent empty company pressed]

/-- A menu with a way to node 2, one to an agent, and one to a node that does not exist. -/
def menuText : String :=
  "[\x7b\"dtmf\":\"1\",\"node\":2\x7d,\x7b\"dtmf\":\"0\",\"node\":7\x7d,\x7b\"dtmf\":\"4\",\"node\":8\x7d]"

def menuRows : List IvrNode :=
  [{ companyId := 3, nodeId := 1, userWord := menuText, recordfile := "welcome.wav" },
   { companyId := 3, nodeId := 2, recordfile := "offers.wav" },
   { companyId := 5, nodeId := 1, recordfile := "closed.wav" }]

/-- A parser that knows the texts the rows carry. -/
def menuLibraries : Libraries where
  parse text :=
    if text = menuText then
      some <| .array
        [.object [("dtmf", .string "1"), ("node", .int 2)],
         .object [("dtmf", .string "0"), ("node", .int 7)],
         .object [("dtmf", .string "4"), ("node", .int 8)]]
    else none
  toStyledString _ := ""
  sqlite3Exec _ _ := none

theorem menuRows_wellFormed : WellFormedScript menuLibraries menuRows where
  contiguous := by simp [Contiguous, menuRows]
  distinct := by decide
  noAgentRow := by decide
  scripts := by
    intro row member
    simp only [menuRows, List.mem_cons, List.not_mem_nil, or_false] at member
    rcases member with rfl | rfl | rfl
    · refine .inr ⟨_, rfl, ?_⟩
      simp only [List.mem_cons, List.not_mem_nil, or_false]
      rintro element (rfl | rfl | rfl) <;> rfl
    · exact .inl rfl
    · exact .inl rfl

theorem navigation_refines_script_menu :
    ∃ ivr, initivrflow menuLibraries menuRows {} = .ok ivr ∧
      (∀ company node dtmf,
        ivr.getnodeinfo company node dtmf = directAnswer menuLibraries menuRows company node dtmf) ∧
      ∀ company dtmf, dtmf ≠ ivrAnsDftm → ivr.getnodeinfo company ivrAgentFlowIndex dtmf = none :=
  navigation_refines_script rfl menuRows_wellFormed

end CallCenter.Verified
