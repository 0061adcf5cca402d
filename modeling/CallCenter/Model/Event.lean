import CallCenter.Model.Records

/-!
# FreeSWITCH events

An `esl_event_t` is an event type and a list of headers; header names compare without case.
-/

namespace CallCenter.Model

/-- `event->event_id`, as far as `process_event` tells the types apart. -/
inductive EventId where
  | dtmf
  | channelOriginate
  | channelExecuteComplete
  | channelHangup
  | channelHangupComplete
  | channelBridge
  | channelDestroy
  | channelAnswer
  | playbackStart
  | playbackStop
  | other
  deriving DecidableEq, Repr

structure Event where
  eventId : EventId
  headers : List (String × String)
  deriving DecidableEq, Repr

/-- `strcasecmp(first, second) == 0`. -/
def sameName (first second : String) : Bool :=
  first.toList.map Char.toLower == second.toList.map Char.toLower

/-- `esl_event_get_header`: the value of the first header of that name, null when there is none. -/
def eslEventGetHeader (event : Event) (name : String) : Option String :=
  (event.headers.find? fun header => sameName header.1 name).map Prod.snd

/-- `esl_event_get_header(event, name) ? esl_event_get_header(event, name) : ""`. -/
def headerOrEmpty (event : Event) (name : String) : String :=
  (eslEventGetHeader event name).getD ""

/-- A `std::string` made straight from `esl_event_get_header(event, name)`. -/
def headerAsString (event : Event) (name : String) : Except Fault String :=
  match eslEventGetHeader event name with
  | some value => .ok value
  | none => .error .nullString

namespace Event

def uuid (event : Event) : String := headerOrEmpty event "Caller-Unique-ID"

def callerId (event : Event) : String := headerOrEmpty event "Caller-Caller-ID-Number"

def destinationNumber (event : Event) : String := headerOrEmpty event "Caller-Destination-Number"

end Event

end CallCenter.Model
