import CallCenter.Foundation.OrderedMap
import CallCenter.Foundation.Decimal
import CallCenter.Model.Json

/-!
# IVR navigation

`Managerivr` of `IVRmanager.cpp`: the node table of every company and the flow table computed
from it.  A `t_ivrnode*` always points into the node table, so a pointer is a company and a
node number there.
-/

namespace CallCenter.Model

open Std (ExtTreeMap)
open CallCenter.Foundation

/-- `IVR_AGENT_FLOW_INDEX`: the node number of the virtual node "transfer to an agent". -/
def ivrAgentFlowIndex : Int := 9999

/-- `IVR_AGNET_MSG`: its record file. -/
def ivrAgnetMsg : String := "TransformAgent"

/-- `IVR_ANS_DFTM`: the virtual key that stands for the call being answered. -/
def ivrAnsDftm : String := "-1"

structure NodePointer where
  companyId : Int
  nodeId : Int
  deriving DecidableEq, Repr

/-- `t_flownode`: a node and its successors by key. -/
structure FlowNode where
  current : Option NodePointer := none
  next : ExtTreeMap String NodePointer := ∅

/-- One company's nodes by number. -/
abbrev CompanyTable := ExtTreeMap Int IvrNode

structure Managerivr where
  ivrNodetable : ExtTreeMap Int CompanyTable := ∅
  flowtable : ExtTreeMap String FlowNode := ∅

/-- `tempnode`: the virtual node of a company. -/
def agentNode (companyId : Int) : IvrNode :=
  { companyId, nodeId := ivrAgentFlowIndex, recordfile := ivrAgnetMsg, userWord := "" }

/-- `oneNodeTable` for a group of rows of one company. -/
def oneNodeTable (companyId : Int) (rows : List IvrNode) : CompanyTable :=
  rows.foldl (fun table sec => table.insert sec.nodeId sec)
    ((∅ : CompanyTable).insert ivrAgentFlowIndex (agentNode companyId))

/-- The variables of the grouping loop besides its iterators, with the rows it has stored. -/
structure Grouping where
  ivrNodetable : ExtTreeMap Int CompanyTable := ∅
  oneNodeTable : CompanyTable := ∅
  stored : List IvrNode := []

/-- The inner loop, `while (sec->company_id == ite->company_id)`, from the row `sec` stands at.  Its
guard reads `sec` without a look at `end()`. -/
def Grouping.storeRun (ite : IvrNode) : List IvrNode → Grouping → Except Fault (List IvrNode) × Grouping
  | [], grouping => (.error .pastEnd, grouping)
  | sec :: rest, grouping =>
    if sec.companyId == ite.companyId then
      storeRun ite rest
        { grouping with
          oneNodeTable := grouping.oneNodeTable.insert sec.nodeId sec
          stored := grouping.stored ++ [sec] }
    else
      (.ok (sec :: rest), grouping)

/-- The outer loop, `while (ite != nodetable.end())`, from the row both iterators stand at; `none` where
the fuel is not enough to finish. -/
def Grouping.run : Nat → List IvrNode → Grouping → Option (Except Fault Unit × Grouping)
  | _, [], grouping => some (.ok (), grouping)
  | 0, _ :: _, _ => none
  | fuel + 1, ite :: rest, grouping =>
    let opened := { grouping with
      oneNodeTable := (∅ : CompanyTable).insert ivrAgentFlowIndex (agentNode ite.companyId) }
    match opened.storeRun ite (ite :: rest) with
    | (.error fault, grouping) => some (.error fault, grouping)
    | (.ok sec, grouping) =>
      run fuel sec
        { grouping with ivrNodetable := grouping.ivrNodetable.insert ite.companyId grouping.oneNodeTable }

/-- The grouping loop: each run of rows with equal company ids becomes that company's table.
The fuel is the number of rows; a read past the end counts as another company. -/
def groupRows : Nat → List IvrNode → ExtTreeMap Int CompanyTable → ExtTreeMap Int CompanyTable
  | 0, _, table => table
  | _, [], table => table
  | fuel + 1, ite :: rest, table =>
    let sameCompany := fun sec : IvrNode => sec.companyId == ite.companyId
    groupRows fuel ((ite :: rest).dropWhile sameCompany)
      (table.insert ite.companyId (oneNodeTable ite.companyId ((ite :: rest).takeWhile sameCompany)))

/-- The body of the loop over the entries of a `user_word`. -/
def addEntry (companyId : Int) (nodes : CompanyTable) (next : ExtTreeMap String NodePointer)
    (entry : Json) : Except Fault (ExtTreeMap String NodePointer) := do
  let intnextnode ← (← entry.member "node").asInt
  let strdtmf ← (← entry.member "dtmf").asString
  if strdtmf = "0" then
    pure (next.insert "0" ⟨companyId, ivrAgentFlowIndex⟩)
  else if intnextnode ∈ nodes then
    pure (next.insert strdtmf ⟨companyId, intnextnode⟩)
  else
    pure next

/-- The `flownode` of one node. -/
def flowNode (lib : Libraries) (companyId : Int) (nodes : CompanyTable) (node : Int × IvrNode) :
    Except Fault FlowNode := do
  match ← lib.read node.2.userWord with
  | none => pure { current := some ⟨companyId, node.1⟩ }
  | some root =>
    let next ← root.children.foldlM (addEntry companyId nodes) ∅
    pure { current := some ⟨companyId, node.1⟩, next }

/-- The pass over the nodes of one company. -/
def companyFlows (lib : Libraries) (flows : ExtTreeMap String FlowNode) (company : Int × CompanyTable) :
    Except Fault (ExtTreeMap String FlowNode) :=
  company.2.toList.foldlM (fun flows node => do
    let flow ← flowNode lib company.1 company.2 node
    pure (flows.insert (underscored company.1 node.2.nodeId) flow)) flows

/-- `Initivrflow`, on top of whatever the two tables hold already. -/
def initivrflow (lib : Libraries) (nodetable : List IvrNode) (ivr : Managerivr) :
    Except Fault Managerivr := do
  let nodes := groupRows nodetable.length nodetable ivr.ivrNodetable
  let flows ← nodes.toList.foldlM (companyFlows lib) ivr.flowtable
  pure { ivrNodetable := nodes, flowtable := flows }

namespace Managerivr

/-- The node a pointer points to. -/
def node? (ivr : Managerivr) (pointer : NodePointer) : Option IvrNode :=
  ivr.ivrNodetable[pointer.companyId]?.bind fun nodes => nodes[pointer.nodeId]?

/-- `Getnodeinfo`.  A missing flow reads as the null pointer and no successors, which is what
`m_flowtable[uniqueid]` creates for it. -/
def getnodeinfo (ivr : Managerivr) (companyid currentnode : Int) (dtmfnum : String) : Option IvrNode :=
  match ivr.ivrNodetable[companyid]? with
  | none => none
  | some ptable =>
    match ptable[currentnode]? with
    | none => none
    | some _ =>
      let flow := (ivr.flowtable[underscored companyid currentnode]?).getD {}
      if dtmfnum = ivrAnsDftm then flow.current.bind ivr.node?
      else if dtmfnum = "#" then flow.next[""]?.bind ivr.node?
      else flow.next[dtmfnum]?.bind ivr.node?

end Managerivr

end CallCenter.Model
