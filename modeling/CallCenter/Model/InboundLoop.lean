import CallCenter.Model.EslHandle
import CallCenter.Model.System

/-!
# The loop of the event thread

`Inbound_Init` receives events from its connection and gives each to `process_event`, which reads the event
first and then sends commands of its own.  Other threads send commands on the same connection at any time,
and each wait for a reply frees the event that was received last.
-/

namespace CallCenter.Model

open CallCenter.Foundation (Text)

/-- The `case` of `switch (event->event_id)`. -/
def EventId.ofType (eventId : Nat) : EventId :=
  match eslEventName eventId with
  | some "DTMF" => .dtmf
  | some "CHANNEL_ORIGINATE" => .channelOriginate
  | some "CHANNEL_EXECUTE_COMPLETE" => .channelExecuteComplete
  | some "CHANNEL_HANGUP" => .channelHangup
  | some "CHANNEL_HANGUP_COMPLETE" => .channelHangupComplete
  | some "CHANNEL_BRIDGE" => .channelBridge
  | some "CHANNEL_DESTROY" => .channelDestroy
  | some "CHANNEL_ANSWER" => .channelAnswer
  | some "PLAYBACK_START" => .playbackStart
  | some "PLAYBACK_STOP" => .playbackStop
  | _ => .other

/-- The event as `process_event` reads it. -/
def EslEvent.toEvent (event : EslEvent) : Event where
  eventId := .ofType event.eventId
  headers := event.headers.map fun hp => (String.ofList hp.name, String.ofList hp.value)

/-- Where the event thread stands: in `esl_recv_event`; behind it and before it looks at `last_ievent`; in
`process_event`, where it reads the event it was given, or behind that, where it sends commands; or behind
the loop.  It may also have read an event that was freed. -/
inductive EventThread where
  | receiving
  | received
  | reading (event : EslEvent)
  | commanding
  | ended
  | faulted
  deriving DecidableEq, Repr

/-- The process with the connection of its event thread. -/
structure Inbound where
  handle : EslHandle
  socket : List Recv
  thread : EventThread := .receiving
  system : System

/-- The steps of the event thread, those of commands on its connection, and those of the other threads. -/
inductive InboundMove where
  | receive (status : EslStatus)
  | look (event : EslEvent)
  | skip
  | process (event : EslEvent) (ambient : Ambient)
  | readFreed
  | finish
  | send (cmd : Text) (sent : Bool)
  | round (status : Option EslStatus)
  | other (action : Action)

/-- An action that is not the event thread's. -/
def Action.isOther : Action → Bool
  | .event _ _ => false
  | _ => true

section InboundLoop

variable (lib : Libraries) (fresh : Nat → Char) (createJson : Text → Option EslEvent)

inductive InboundSteps : Inbound → InboundMove → Inbound → Prop where
  | receive {before : Inbound} {status : EslStatus} {handle : EslHandle} {socket : List Recv}
      (thread : before.thread = .receiving)
      (returned : eslRecvEvent fresh createJson true before.handle before.socket = .ok (status, handle, socket)) :
      InboundSteps before (.receive status)
        { before with handle, socket, thread := if status = .success then .received else .ended }
  | look {before : Inbound} {event : EslEvent} (thread : before.thread = .received)
      (ievent : before.handle.lastIevent = some event) :
      InboundSteps before (.look event) { before with thread := .reading event }
  | skip {before : Inbound} (thread : before.thread = .received) (ievent : before.handle.lastIevent = none) :
      InboundSteps before .skip { before with thread := .receiving }
  | process {before : Inbound} {event : EslEvent} {ambient : Ambient} {system : System}
      (thread : before.thread = .reading event) (ievent : before.handle.lastIevent = some event)
      (processed : before.system.step lib (.event event.toEvent ambient) = some system) :
      InboundSteps before (.process event ambient) { before with thread := .commanding, system }
  | readFreed {before : Inbound} {event : EslEvent} (thread : before.thread = .reading event)
      (ievent : before.handle.lastIevent = none) :
      InboundSteps before .readFreed { before with thread := .faulted }
  | finish {before : Inbound} (thread : before.thread = .commanding) :
      InboundSteps before .finish { before with thread := .receiving }
  | send {before : Inbound} (cmd : Text) (sent : Bool) (connected : before.handle.connected = true) :
      InboundSteps before (.send cmd sent)
        { before with handle := (eslSend cmd sent { before.handle with lastSrEvent := none, lastSrReply := [] }).2 }
  | round {before : Inbound} {status : Option EslStatus} {handle : EslHandle} {socket : List Recv}
      (returned : recvRound fresh before.handle before.socket = .ok (status, handle, socket)) :
      InboundSteps before (.round status) { before with handle, socket }
  | other {before : Inbound} {action : Action} {system : System} (other : action.isOther = true)
      (stepped : before.system.step lib action = some system) :
      InboundSteps before (.other action) { before with system }

end InboundLoop

end CallCenter.Model
