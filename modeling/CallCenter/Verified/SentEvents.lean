import CallCenter.Verified.EslPackets
import CallCenter.Verified.InboundLoop

/-!
# Events that are sent are processed

A stream of serialized events, each behind its length and type, with replies between them: the event
thread gives `process_event` the events that were sent.
-/

namespace CallCenter.Verified.SentEvents

open CallCenter.Foundation (Text Run)
open CallCenter.Foundation.Framing
open CallCenter.Foundation.Numerals (longMax)
open CallCenter.Model CallCenter.Model.EslEvent
open CallCenter.Verified.EslEvents CallCenter.Verified.EslPackets CallCenter.Verified.EslReceiving
open CallCenter.Verified.EslSerialization CallCenter.Verified.InboundLoop

/-! ## What is sent -/

/-- What comes over the connection: an event, or a reply to a command. -/
inductive Sending where
  | event (event : EslEvent)
  | reply (headers : List EslHeader)

/-- The text of an event. -/
def eventText (event : EslEvent) : Text := (event.serialize true).toOption.getD []

/-- Its bytes. -/
def Sending.wire : Sending → Text
  | .event sent => (frameHeaders (eventText sent).length).flatMap line ++ '\n' :: eventText sent
  | .reply headers => headers.flatMap line ++ ['\n']

/-- The message that is received. -/
def Sending.message : Sending → EslEvent
  | .event sent => { packetEvent (frameHeaders (eventText sent).length) with body := some (eventText sent) }
  | .reply headers => packetEvent headers

/-- The event that was sent, as it is received. -/
def receivedEvent (event : EslEvent) : EslEvent where
  eventId := typeBehind eslEventCustom event.headers
  headers := event.headers ++ announced event.body
  body := event.body

def Sending.event? : Sending → Option EslEvent
  | .event sent => some sent
  | .reply _ => none

/-- What can be sent. -/
def Sending.Fits : Sending → Prop
  | .event sent => SendableEvent sent ∧ (eventText sent).length < bufStart
  | .reply headers =>
    PacketHeaders headers ∧ ∀ hp ∈ headers, strcaseeq hp.name "content-length".toList = false

/-- The next message of the stream is the one that was sent. -/
theorem nextMessage_wire {sending : Sending} (fits : sending.Fits) (rest : Text) :
    nextMessage (sending.wire ++ rest) = some (.ok sending.message, rest) := by
  cases sending with
  | event sent =>
    obtain ⟨isPacket, parsed⟩ := nextPacket_lines (frameHeaders_packet fits.2) (eventText sent ++ rest)
    have found : (packetEvent (frameHeaders (eventText sent).length)).getHeader "content-length".toList =
      some (digits (eventText sent).length) := (frame_lookup fits.2 none).1
    rw [Sending.wire, List.append_assoc, List.cons_append, nextMessage, isPacket]
    dsimp only
    rw [parsed, found]
    dsimp only
    have fitsLong : ((eventText sent).length : Int) ≤ longMax := by
      have few := fits.2
      rw [bufStart] at few
      rw [longMax]
      omega
    rw [atol_digits fitsLong]
    show (nextBody (eventText sent).length (eventText sent ++ rest)).map _ = _
    rw [nextBody, List.length_append, if_pos (Nat.le_add_right _ _), List.take_left, List.drop_left]
    rfl
  | reply headers =>
    obtain ⟨packet, noLength⟩ := fits
    obtain ⟨isPacket, parsed⟩ := nextPacket_lines packet rest
    have hashed : Hashed (packetEvent headers) := hashed_packet packet none
    have absent : header "content-length".toList (packetEvent headers) = none := by
      refine List.find?_eq_none.mpr (List.forall_mem_cons.mpr ⟨by decide, fun hp member => ?_⟩)
      rw [noLength hp member]
      decide
    have other : "content-length".toList ≠ "_body".toList := by decide
    rw [Sending.wire, List.append_assoc, List.singleton_append, nextMessage, isPacket]
    dsimp only
    rw [parsed, getHeader_eq hashed, byName, absent]
    dsimp only
    rw [if_neg other]
    rfl

/-- The event in it is the one that was sent. -/
theorem innerEvent_message (createJson : Text → Option EslEvent) {sending : Sending} (fits : sending.Fits) :
    innerEvent createJson sending.message = sending.event?.map receivedEvent := by
  cases sending with
  | event sent =>
    obtain ⟨text, written, parsed⟩ := parsePlain_serialize fits.1
    have isText : eventText sent = text := by
      rw [eventText, written]
      rfl
    have found := (frame_lookup fits.2 (some (eventText sent))).2
    have isPlain : safeStrcaseeq (some "text/event-plain".toList) "text/event-plain" = true := by decide
    rw [Sending.message, innerEvent]
    dsimp only
    rw [found, if_pos isPlain, isText, parsed]
    rfl
  | reply headers => rfl

/-- The messages of the stream are those that were sent. -/
theorem decodes_sent {sendings : List Sending} (fit : ∀ sending ∈ sendings, sending.Fits) (rest : Text) :
    Decodes nextMessage (sendings.flatMap Sending.wire ++ rest) (sendings.map fun sending => .ok sending.message)
      rest :=
  .of_encoded Sending.wire _ (fun sending member => nextMessage_wire (fit sending member)) rest

/-- The events in them are those that were sent. -/
theorem inner_sent (createJson : Text → Option EslEvent) {sendings : List Sending}
    (fit : ∀ sending ∈ sendings, sending.Fits) :
    (sendings.map Sending.message).filterMap (innerEvent createJson) =
      (sendings.filterMap Sending.event?).map receivedEvent := by
  induction sendings with
  | nil => rfl
  | cons sending sendings inductionHypothesis =>
    rw [List.forall_mem_cons] at fit
    rw [List.map_cons, List.filterMap_cons, innerEvent_message createJson fit.1, inductionHypothesis fit.2,
      List.filterMap_cons]
    cases sending.event? <;> rfl

/-! ## What is processed -/

variable {lib : Libraries} {fresh : Nat → Char} {createJson : Text → Option EslEvent}

theorem prefix_of_map {messages sent : List EslEvent}
    (front : messages.map (@Except.ok EslFault EslEvent) <+: sent.map (@Except.ok EslFault EslEvent)) :
    messages <+: sent := by
  have same : ∀ events : List EslEvent,
      (events.map (@Except.ok EslFault EslEvent)).filterMap Except.toOption = events := by
    intro events
    rw [List.filterMap_map]
    exact List.filterMap_some
  have kept := front.filterMap Except.toOption
  rwa [same, same] at kept

/-- Where no reply overtakes an event or frees it, the events that `process_event` was given, the one it is
about to be given and those in the queue are the first of the events that were sent: each once, in order,
with its headers, arrays and body; and they are all of them when no further message has come. -/
theorem processes_sent {before after : Inbound} {moves : List InboundMove} {sendings : List Sending} {rest : Text}
    (starts : Starts before) (fit : ∀ sending ∈ sendings, sending.Fits)
    (incoming : stream before.handle before.socket = sendings.flatMap Sending.wire ++ rest)
    (nothing : nextMessage rest = none)
    (run : Run (Unhurried lib fresh createJson) before moves after) :
    let reached := processed moves ++ held after ++ after.handle.raceEvent.filterMap (innerEvent createJson)
    let sent := (sendings.filterMap Sending.event?).map receivedEvent
    reached <+: sent ∧
      (after.handle.connected = true → nextMessage (stream after.handle after.socket) = none → reached = sent) := by
  obtain ⟨-, messages, left, decodes, behind, inOrder, -⟩ := processed_in_order starts run
  have sent := decodes_sent fit rest
  rw [← incoming] at sent
  have front : messages <+: sendings.map Sending.message := prefix_of_map (by
    rw [List.map_map]
    exact sent.longest decodes nothing)
  intro reached all
  have isReached : reached = messages.filterMap (innerEvent createJson) := inOrder
  have isAll : all = (sendings.map Sending.message).filterMap (innerEvent createJson) :=
    (inner_sent createJson fit).symm
  rw [isReached, isAll]
  refine ⟨front.filterMap _, fun connected ended => ?_⟩
  rw [behind connected] at ended
  have back : sendings.map Sending.message <+: messages := prefix_of_map (by
    rw [List.map_map]
    exact decodes.longest sent ended)
  rw [front.eq_of_length_le back.length_le]

/-! ## One event that is sent -/

/-- It comes over a new connection. -/
def sentHeartbeat : Inbound where
  handle := .connect
  socket := [.data (Sending.wire (.event heartbeat))]
  system := {}

theorem heartbeat_fits : ∀ sending ∈ [Sending.event heartbeat], sending.Fits := by
  intro sending member
  rw [List.mem_singleton.mp member]
  exact ⟨heartbeat_sendable, by decide +kernel⟩

theorem sentHeartbeat_starts : Starts sentHeartbeat := ⟨rfl, rfl, roomy_connect (by decide +kernel)⟩

theorem sentHeartbeat_stream :
    stream sentHeartbeat.handle sentHeartbeat.socket = [Sending.event heartbeat].flatMap Sending.wire ++ [] := by
  rw [stream, sentHeartbeat, arriving, arriving, List.flatMap_singleton]
  exact congrArg (· ++ (Sending.wire (.event heartbeat) ++ [])) List.take_zero

theorem sentHeartbeat_stepped : sentHeartbeat.system.step noLibraries
    (.event (receivedEvent heartbeat).toEvent ⟨0, "", "", fun _ => 0⟩) = some sentHeartbeat.system := by
  have other : (receivedEvent heartbeat).toEvent.eventId = .other := by decide +kernel
  simp only [System.step, ManagerDN.processEvent, other, System.recordEvent]
  rfl

theorem processes_sent_heartbeat :
    ∃ (moves : List InboundMove) (after : Inbound),
      processed moves = [receivedEvent heartbeat] ∧
      (let reached := processed moves ++ held after ++ after.handle.raceEvent.filterMap (innerEvent fun _ => none)
       let sent := ([Sending.event heartbeat].filterMap Sending.event?).map receivedEvent
       reached <+: sent ∧
         (after.handle.connected = true → nextMessage (stream after.handle after.socket) = none → reached = sent)) := by
  have fits := heartbeat_fits _ List.mem_cons_self
  have isNext := nextMessage_wire fits []
  have isStream := sentHeartbeat_stream
  rw [List.flatMap_singleton] at isStream
  rw [← isStream] at isNext
  obtain ⟨moves, after, run, one, -⟩ := @run_one noLibraries (fun _ => 'x') (fun _ => none) _ _ _ _ _ _
    sentHeartbeat_starts rfl isNext (innerEvent_message _ fits) sentHeartbeat_stepped
  exact ⟨moves, after, one, processes_sent sentHeartbeat_starts heartbeat_fits sentHeartbeat_stream rfl run⟩

end CallCenter.Verified.SentEvents
