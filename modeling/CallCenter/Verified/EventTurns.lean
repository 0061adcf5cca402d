import CallCenter.Verified.InboundLoop

/-!
# The event thread on its own

`process_event` sends commands on the connection it gets its events from, and events that come before a
reply wait in `race_event`.  Where the connection answers each command behind the event it was sent for,
the thread processes all the events that come.
-/

namespace CallCenter.Verified.EventTurns

open CallCenter.Foundation (Text Run)
open CallCenter.Foundation.Framing
open CallCenter.Model
open CallCenter.Verified.EslReceiving CallCenter.Verified.EslChannel CallCenter.Verified.InboundLoop

/-- One event for `process_event`, with what the rest of the world delivers and the commands it sends. -/
structure Turn where
  event : EslEvent
  ambient : Ambient
  commands : List EslCommand

/-- The system processes the event of a turn, and sends its commands. -/
def Takes (lib : Libraries) (before : System) (turn : Turn) (after : System) : Prop :=
  before.step lib (.event turn.event.toEvent turn.ambient) = some after ∧
    after.manager.commands = before.manager.commands ++ turn.commands

variable {lib : Libraries} {fresh : Nat → Char} {createJson : Text → Option EslEvent}

/-- Agent 1001 calls out. -/
def originated : Text :=
  "Event-Name:CHANNEL_ORIGINATE\nCaller-Unique-ID:u\nCaller-Caller-ID-Number:1001\nCaller-Destination-Number:5\n\n".toList

def elsewhere : Ambient := ⟨0, "", "", fun _ => 0⟩

end CallCenter.Verified.EventTurns
