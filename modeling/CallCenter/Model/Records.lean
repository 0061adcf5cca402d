import CallCenter.Foundation.Cell

/-!
# Records of the call centre

The structures of `common/structdef.h` and `IVRmanager.h`, with the members some modelled
function reads or writes, and what an operation gets from outside the program.
-/

namespace CallCenter.Model

/-- What ends the process: a `std::string` built from a null pointer, a read of `m_gRoute`
outside its bounds, an exception of jsoncpp nobody catches (a `Json::LogicError`, or the reader's
own for a text nested too deep), an iterator moved past the end of its vector, an item stored
through the null section pointer, or a copy of negative length. -/
inductive Fault where
  | nullString
  | routeOutOfRange
  | logicError
  | stackLimit
  | pastEnd
  | nullSection
  | negativeLength
  deriving DecidableEq, Repr

/-- What an operation finds outside the program: the clock (`time(NULL)`, `format_time` and
`getcurrenttime`) and the values that uninitialised members happen to hold. -/
structure Ambient where
  now : Int
  formatTime : String
  currentTime : String
  junk : String → Int

/-- `Route`: one row of `call_in_route_tbl`. -/
structure Route where
  group : String
  agent : String
  groupId : String
  gataname : String
  prefixNumber : String
  deriving DecidableEq, Repr

/-- `agent_state_t`. -/
inductive AgentState where
  | idle
  | busy
  | fail
  deriving DecidableEq, Repr

/-- `agent_t`: an extension of a route group. -/
structure Agent where
  exten : String
  state : AgentState
  deriving DecidableEq, Repr

/-- `t_ivrnode`: one row of `ivr_node_flow_tbl`. -/
structure IvrNode where
  enterpriseId : Int := 0
  companyId : Int := 0
  nodeId : Int := 0
  descript : String := ""
  userWord : String := ""
  recordfile : String := ""
  deriving DecidableEq, Repr

/-- `t_Outcallinfo`: one row of `outdial_task_tbl`. -/
structure OutcallInfo where
  phone : String := ""
  name : String := ""
  taskId : String := ""
  companyId : Int := 0
  sex : String := ""
  deriving DecidableEq, Repr

/-- `callout_info_t`: the record of a call, without the columns no handler fills. -/
structure CalloutInfo where
  companyId : Int := 0
  userNumber : String := ""
  customerNumber : String := ""
  callId : String := ""
  callStartTime : String := ""
  callEndTime : String := ""
  callDuration : Int := 0
  callstate : String := "2"
  extensionNumber : String := ""
  callPrefix : String := ""
  recordFile : String := ""
  callType : String := ""
  skillId : String := ""
  createAt : String := ""
  calloutEndTime : Int := 0
  deriving DecidableEq, Repr

/-- An `esl_handle_t`: the event thread's connection, or the n-th one `nwaycc_callback` allocated. -/
inductive Handle where
  | inbound
  | outbound (allocation : Nat)
  deriving DecidableEq, Repr

/-- `CustomerLevel`, as the int `m_customtype` holds. -/
def ivrNormail : Int := 0

def ivrVip : Int := 1

/-- `ivrsession`.  `handle` is `none` until `TransformAgent` sets it. -/
structure IvrSession where
  companyid : Int
  currentnodeid : Int
  uuid : String
  customtype : Int
  startTimestamp : Int
  handle : Option Handle
  newhandle : Option Nat
  deriving DecidableEq, Repr

/-- The constructor of `ivrsession`: company and node are left as they are found. -/
def IvrSession.construct (ambient : Ambient) : IvrSession where
  companyid := ambient.junk "m_companyid"
  currentnodeid := ambient.junk "m_currentnodeid"
  uuid := ""
  customtype := ivrNormail
  startTimestamp := ambient.now
  handle := none
  newhandle := none

/-- `operator <` of `ivrsession`, the comparison of the ACD queue. -/
def IvrSession.less (a b : IvrSession) : Bool :=
  if a.customtype < b.customtype then false
  else if a.startTimestamp < b.startTimestamp then false
  else true

/-- One `esl_execute`: the connection, the application, its argument and the channel. -/
structure EslCommand where
  handle : Option Handle
  app : String
  arg : String
  uuid : String
  deriving DecidableEq, Repr

end CallCenter.Model
