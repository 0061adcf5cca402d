import CallCenter.Model.Dispatch
import CallCenter.Model.Event

/-!
# FreeSWITCH events and incoming calls

`process_event`, one definition for each case of its switch that has an effect, and
`nwaycc_callback`, which runs in a thread of its own for every incoming call.
-/

namespace CallCenter.Model

open Std (ExtTreeMap)
open CallCenter.Foundation

/-- `getGroupNumber`: the group of the first route with that agent. -/
def getGroupNumber (agent : String) (vRoute : List Route) : String :=
  ((vRoute.find? fun route => route.agent == agent).map Route.group).getD ""

/-- `getGroupId`: the group id of the first route with that agent. -/
def getGroupId (agent : String) (vRoute : List Route) : String :=
  ((vRoute.find? fun route => route.agent == agent).map Route.groupId).getD ""

/-- `m_gRoute[index]`; outside the vector the source reads what is not there. -/
def routeAt (vRoute : List Route) (index : Int) : Except Fault Route :=
  match index with
  | .ofNat n =>
    match vRoute[n]? with
    | some route => .ok route
    | none => .error .routeOutOfRange
  | .negSucc _ => .error .routeOutOfRange

/-- What a `CHANNEL_DESTROY` does to the agent it names as the destination. -/
def DNuser.callEnded (billsec : String) (user : DNuser) : DNuser :=
  (user.setagnetStatus AgentStatus.waitingReady.code).countCall billsec

namespace ManagerDN

def updateCallInfo (uuid : String) (change : CalloutInfo → CalloutInfo) (manager : ManagerDN) : ManagerDN :=
  { manager with callInfoMap := manager.callInfoMap.modify uuid change }

/-- `m_ivrmap[key].m_currentnodeid = node`. -/
def setCurrentnode (key : String) (node : Int) (ambient : Ambient) (manager : ManagerDN) : ManagerDN :=
  { manager with
    ivrmap := OrderedMap.subscript manager.ivrmap key (.construct ambient) fun session =>
      { session with currentnodeid := node } }

/-- What a node asks for: to queue the session for an agent, or to play the node's record. -/
def enterNode (handle : Handle) (uuid : String) (session : IvrSession) (pnode : IvrNode)
    (manager : ManagerDN) : ManagerDN :=
  if pnode.recordfile = ivrAgnetMsg then manager.transformAgent handle uuid session
  else manager.playBack handle pnode.recordfile session.uuid

/-! ## The cases of `process_event` -/

/-- `ESL_EVENT_DTMF`.  `psession` is a reference into the map, so the copy that is queued has
the new node. -/
def onDtmf (event : Event) (ambient : Ambient) (manager : ManagerDN) : Except Fault ManagerDN := do
  let _ ← headerAsString event "Caller-Destination-Number"
  let dtmf := headerOrEmpty event "DTMF-Digit"
  match manager.ivrmap[event.uuid]? with
  | none => pure manager
  | some psession =>
    match manager.ivr.getnodeinfo psession.companyid psession.currentnodeid dtmf with
    | none => pure manager
    | some pnode =>
      pure ((manager.setCurrentnode event.uuid pnode.nodeId ambient).enterNode .inbound event.uuid
        { psession with currentnodeid := pnode.nodeId } pnode)

/-- The record an `ESL_EVENT_CHANNEL_ORIGINATE` starts.  Assigning the int 1 to the string
`N_callstate` stores the character with code 1. -/
def originateInfo (event : Event) (destinationNumber : String) (ambient : Ambient) (manager : ManagerDN) :
    CalloutInfo :=
  let skillId := manager.getskillIDfromcaller event.callerId
  let companyId := atoi (getGroupId event.callerId manager.gRoute)
  let recordFile := event.uuid ++ ambient.currentTime ++ ".mp4"
  { skillId
    callType := if skillId = "" then "1" else "2"
    callStartTime := ambient.formatTime
    userNumber := event.callerId
    customerNumber := destinationNumber
    callId := headerOrEmpty event "variable_sip_call_id"
    callstate := "\x01"
    companyId
    callPrefix := if companyId = 3 then "89" else "83"
    extensionNumber := getGroupNumber event.callerId manager.gRoute
    recordFile }

def onOriginate (event : Event) (ambient : Ambient) (manager : ManagerDN) : Except Fault ManagerDN := do
  let destinationNumber ← headerAsString event "Caller-Destination-Number"
  match manager.dnMap[event.callerId]? with
  | none => pure manager
  | some _ =>
    let callinfo := manager.originateInfo event destinationNumber ambient
    let recorded := { manager with callInfoMap := manager.callInfoMap.insert event.uuid callinfo }
    let route ← routeAt manager.gRoute callinfo.companyId
    let charcmd := "sofia/gateway/" ++ cStr route.gataname ++ "/" ++ cStr route.prefixNumber ++
      cStr destinationNumber
    pure (recorded.eslExecute (some .inbound) "bridge" charcmd event.uuid)

def onHangup (event : Event) (ambient : Ambient) (manager : ManagerDN) : ManagerDN :=
  manager.updateCallInfo event.uuid fun info =>
    { info with calloutEndTime := ambient.now, callEndTime := ambient.formatTime }

def onHangupComplete (event : Event) (manager : ManagerDN) : ManagerDN :=
  manager.updateCallInfo event.uuid fun info =>
    { info with callDuration := atoi (headerOrEmpty event "variable_billsec") }

/-- The first half of `ESL_EVENT_CHANNEL_DESTROY`: the record of the call is closed. -/
def closeCallInfo (event : Event) (ambient : Ambient) (manager : ManagerDN) : ManagerDN :=
  match manager.callInfoMap[event.uuid]? with
  | none => manager
  | some info =>
    { manager with
      callInfoMap := manager.callInfoMap.erase event.uuid
      callRecords := manager.callRecords ++
        [{ info with
            calloutEndTime := ambient.now
            callEndTime := ambient.formatTime
            createAt := ambient.formatTime }] }

/-- The second half: the destination, where it is a signed-in agent, is made ready.  The ready
semaphore is signalled twice, once inside `SetagnetStatus`. -/
def releaseAgent (event : Event) (manager : ManagerDN) : ManagerDN :=
  if event.destinationNumber ∈ manager.dnMap then
    let signalled := manager.setDNsemaSignal.setDNsemaSignal.setcalloutsemafree
    { signalled with
      dnMap := signalled.dnMap.modify event.destinationNumber
        (DNuser.callEnded (headerOrEmpty event "variable_duration")) }
  else
    manager

def onDestroy (event : Event) (ambient : Ambient) (manager : ManagerDN) : ManagerDN :=
  (manager.closeCallInfo event ambient).releaseAgent event

/-- The call-out half of `ESL_EVENT_CHANNEL_ANSWER`: a customer a task dialled has answered.  The
node is stored under the caller number, not under the call's uuid. -/
def answerTask (event : Event) (ambient : Ambient) (manager : ManagerDN) : ManagerDN :=
  if headerOrEmpty event "Variable_taskID" ≠ "" then
    let session := { IvrSession.construct ambient with
      uuid := event.uuid
      companyid := atoi (headerOrEmpty event "Variable_company_id")
      currentnodeid := 1 }
    let stored := { manager with ivrmap := manager.ivrmap.insert event.uuid session }
    match stored.ivr.getnodeinfo session.companyid 1 ivrAnsDftm with
    | none => stored
    | some pnode =>
      (stored.setCurrentnode event.callerId pnode.nodeId ambient).enterNode .inbound session.uuid session pnode
  else
    manager

/-- The other half: the record is marked as answered and the destination is talking. -/
def markAnswered (event : Event) (manager : ManagerDN) : ManagerDN :=
  let marked := manager.updateCallInfo event.uuid fun info => { info with callstate := "1" }
  { marked with
    dnMap := marked.dnMap.modify event.destinationNumber (DNuser.setagnetStatus AgentStatus.talking.code) }

def onAnswer (event : Event) (ambient : Ambient) (manager : ManagerDN) : ManagerDN :=
  (manager.answerTask event ambient).markAnswered event

/-- `ESL_EVENT_PLAYBACK_STOP` only reads the destination into a string. -/
def onPlaybackStop (event : Event) (manager : ManagerDN) : Except Fault ManagerDN := do
  let _ ← headerAsString event "Caller-Destination-Number"
  pure manager

def processEvent (event : Event) (ambient : Ambient) (manager : ManagerDN) : Except Fault ManagerDN :=
  match event.eventId with
  | .dtmf => manager.onDtmf event ambient
  | .channelOriginate => manager.onOriginate event ambient
  | .channelExecuteComplete => .ok manager
  | .channelHangup => .ok (manager.onHangup event ambient)
  | .channelHangupComplete => .ok (manager.onHangupComplete event)
  | .channelBridge => .ok manager
  | .channelDestroy => .ok (manager.onDestroy event ambient)
  | .channelAnswer => .ok (manager.onAnswer event ambient)
  | .playbackStart => .ok manager
  | .playbackStop => manager.onPlaybackStop event
  | .other => .ok manager

end ManagerDN

/-! ## Incoming calls -/

/-- What `nwaycc_callback` finds on the socket it is given. -/
structure Incoming where
  attached : Bool
  connected : Bool
  infoEvent : Event

namespace ManagerDN

/-- The session of a new call, stored and led into the first node of its company.  The result
says whether the session was queued; otherwise the callback still has its handle to release. -/
def startSession (handle : Nat) (callid companyid : String) (ambient : Ambient) (manager : ManagerDN) :
    Bool × ManagerDN :=
  let session := { IvrSession.construct ambient with
    uuid := callid
    companyid := atoi companyid
    currentnodeid := 1
    newhandle := some handle }
  let stored := { manager with ivrmap := manager.ivrmap.insert callid session }
  match stored.ivr.getnodeinfo session.companyid 1 ivrAnsDftm with
  | none => (false, stored)
  | some pnode =>
    (pnode.recordfile = ivrAgnetMsg,
      (stored.setCurrentnode callid pnode.nodeId ambient).enterNode (.outbound handle) callid session pnode)

/-- `nwaycc_callback` from `new esl_handle_t` to the point before it releases the handle; the
handle comes back unless it went into the queue with the session. -/
def nwayccCallback (incoming : Incoming) (ambient : Ambient) (manager : ManagerDN) :
    Except Fault (Option Nat × ManagerDN) := do
  let handle := manager.allocated
  let created := { manager with allocated := manager.allocated + 1 }
  if !incoming.attached || !incoming.connected then
    pure (some handle, created)
  else
    let companyid := created.getCompanyIdFromgate incoming.infoEvent.destinationNumber
    if companyid = "" then
      pure (some handle, created)
    else
      let parked := (created.eslExecute (some (.outbound handle)) "answer" "" "").eslExecute
        (some (.outbound handle)) "park" "" ""
      let callid ← headerAsString incoming.infoEvent "caller-unique-id"
      let (queued, started) := parked.startSession handle callid companyid ambient
      pure (if queued then none else some handle, started)

end ManagerDN

end CallCenter.Model
