import CallCenter.Foundation.Outcomes
import CallCenter.Verified.Steps

/-!
# Which events are handled

`process_event` reads the destination number into a string at its start with a look at whether the
header is there, and again in three cases without one.  The case of an outgoing call takes the number
of the caller's company for a position in the list of routes.
-/

namespace CallCenter.Verified.EventHandling

open CallCenter.Foundation CallCenter.Foundation.Outcomes CallCenter.Model

/-! ## Faults -/

/-- The event has the header. -/
def HasHeader (event : Event) (name : String) : Prop := (eslEventGetHeader event name).isSome = true

instance (event : Event) (name : String) : Decidable (HasHeader event name) :=
  inferInstanceAs (Decidable ((eslEventGetHeader event name).isSome = true))

/-- The company of the caller, as the case of an outgoing call computes it. -/
def callerCompany (event : Event) (manager : ManagerDN) : Int := atoi (getGroupId event.callerId manager.gRoute)

/-- The list of routes has a row at that position. -/
def HasRouteAt (index : Int) (routes : List Route) : Prop := 0 ≤ index ∧ index < routes.length

/-- The headers and the row the case of the event reads without a look are there. -/
def Readable (event : Event) (manager : ManagerDN) : Prop :=
  match event.eventId with
  | .dtmf | .playbackStop => HasHeader event "Caller-Destination-Number"
  | .channelOriginate =>
    HasHeader event "Caller-Destination-Number" ∧
      (event.callerId ∈ manager.dnMap → HasRouteAt (callerCompany event manager) manager.gRoute)
  | _ => True

theorem isOk_headerAsString (event : Event) (name : String) :
    (headerAsString event name).isOk = true ↔ HasHeader event name := by
  rw [headerAsString, HasHeader]
  cases eslEventGetHeader event name <;> simp

theorem isOk_routeAt (routes : List Route) (index : Int) :
    (routeAt routes index).isOk = true ↔ HasRouteAt index routes := by
  cases index with
  | negSucc n => simp [routeAt, HasRouteAt]
  | ofNat n =>
    have bounds : HasRouteAt (Int.ofNat n) routes ↔ n < routes.length := by
      simp [HasRouteAt]
    rw [bounds]
    by_cases inRange : n < routes.length
    · simp [routeAt, inRange]
    · simp [routeAt, inRange]

theorem isOk_onDtmf (event : Event) (ambient : Ambient) (manager : ManagerDN) :
    (manager.onDtmf event ambient).isOk = true ↔ HasHeader event "Caller-Destination-Number" := by
  rw [ManagerDN.onDtmf, isOk_bind_iff_and fun _ => iff_true_intro ?_, isOk_headerAsString, and_true]
  -- Behind the header nothing can go wrong.
  cases manager.ivrmap[event.uuid]? with
  | none => rfl
  | some psession =>
    dsimp only
    cases manager.ivr.getnodeinfo psession.companyid psession.currentnodeid
      (headerOrEmpty event "DTMF-Digit") <;> rfl

theorem isOk_onOriginate (event : Event) (ambient : Ambient) (manager : ManagerDN) :
    (manager.onOriginate event ambient).isOk = true ↔
      HasHeader event "Caller-Destination-Number" ∧
        (event.callerId ∈ manager.dnMap → HasRouteAt (callerCompany event manager) manager.gRoute) := by
  rw [ManagerDN.onOriginate, isOk_bind_iff_and fun _ => ?_, isOk_headerAsString]
  rw [Std.ExtTreeMap.mem_iff_isSome_getElem?]
  cases manager.dnMap[event.callerId]? with
  | none => simp
  | some user =>
    dsimp only
    rw [isOk_bind_iff_and fun _ => iff_true_intro (isOk_pure _), and_true]
    rw [Option.isSome_some, eq_self_iff_true, true_imp_iff]
    exact isOk_routeAt manager.gRoute (callerCompany event manager)

theorem isOk_onPlaybackStop (event : Event) (manager : ManagerDN) :
    (manager.onPlaybackStop event).isOk = true ↔ HasHeader event "Caller-Destination-Number" := by
  rw [ManagerDN.onPlaybackStop, isOk_bind_iff_and fun _ => iff_true_intro (isOk_pure _),
    isOk_headerAsString, and_true]

/-- An event is handled without a fault exactly when what its case reads without a look is there. -/
theorem processEvent_total_iff (event : Event) (ambient : Ambient) (manager : ManagerDN) :
    (∃ after, manager.processEvent event ambient = .ok after) ↔ Readable event manager := by
  rw [← isOk_iff, ManagerDN.processEvent, Readable]
  cases event.eventId with
  | dtmf => exact isOk_onDtmf event ambient manager
  | channelOriginate => exact isOk_onOriginate event ambient manager
  | playbackStop => exact isOk_onPlaybackStop event manager
  | channelExecuteComplete | channelHangup | channelHangupComplete | channelBridge | channelDestroy | channelAnswer
  | playbackStart | other => simp

/-- A key press in an event without a destination number. -/
theorem dtmf_without_destination :
    ¬ ∃ after, ManagerDN.processEvent ⟨.dtmf, [("Caller-Unique-ID", "a"), ("DTMF-Digit", "1")]⟩ noon {} = .ok after := by
  rintro ⟨after, handled⟩
  cases handled

/-! ## Outgoing calls -/

/-- The gateway and the prefix of a route as the bridge command names them. -/
def gatewayPath (route : Route) : String := cStr route.gataname ++ "/" ++ cStr route.prefixNumber

/-- The command that bridges a channel through a route. -/
def bridgeThrough (route : Route) (destination uuid : String) : EslCommand where
  handle := some .inbound
  app := "bridge"
  arg := "sofia/gateway/" ++ cStr route.gataname ++ "/" ++ cStr route.prefixNumber ++ cStr destination
  uuid := uuid

/-- What the case of an outgoing call sends, for a signed-in caller. -/
theorem onOriginate_ok {event : Event} {manager : ManagerDN} (signedIn : event.callerId ∈ manager.dnMap)
    (destination : HasHeader event "Caller-Destination-Number") (ambient : Ambient) :
    (∀ after, manager.onOriginate event ambient = .ok after → ∃ used,
      routeAt manager.gRoute (callerCompany event manager) = .ok used ∧
        after.commands = manager.commands ++ [bridgeThrough used event.destinationNumber event.uuid]) ∧
      ∀ used, routeAt manager.gRoute (callerCompany event manager) = .ok used →
        ∃ after, manager.onOriginate event ambient = .ok after ∧
          after.commands = manager.commands ++ [bridgeThrough used event.destinationNumber event.uuid] := by
  obtain ⟨number, isNumber⟩ := Option.isSome_iff_exists.mp destination
  obtain ⟨user, present⟩ := Option.isSome_iff_exists.mp (Std.ExtTreeMap.mem_iff_isSome_getElem?.mp signedIn)
  have isDestination : event.destinationNumber = number := by
    rw [Event.destinationNumber, headerOrEmpty, isNumber, Option.getD_some]
  have shape : manager.onOriginate event ambient = (do
      let route ← routeAt manager.gRoute (callerCompany event manager)
      pure (({ manager with callInfoMap :=
        manager.callInfoMap.insert event.uuid (manager.originateInfo event number ambient) }).eslExecute
          (some .inbound) "bridge" (bridgeThrough route number event.uuid).arg event.uuid)) := by
    simp only [ManagerDN.onOriginate, headerAsString, isNumber, present]
    rfl
  rw [shape, isDestination]
  cases routeAt manager.gRoute (callerCompany event manager) with
  | error fault =>
    constructor
    · intro _ handled
      cases handled
    · intro _ isUsed
      cases isUsed
  | ok used =>
    refine ⟨fun after handled => ⟨used, rfl, ?_⟩, fun _ isUsed => ?_⟩
    · cases handled
      rfl
    · cases isUsed
      exact ⟨_, rfl, rfl⟩

def originated : Event :=
  ⟨.channelOriginate, [("Caller-Unique-ID", "a"), ("Caller-Caller-ID-Number", "1001"),
    ("Caller-Destination-Number", "13800000000")]⟩

end CallCenter.Verified.EventHandling
