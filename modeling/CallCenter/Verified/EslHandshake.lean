import CallCenter.Verified.EslChannel

/-!
# The start of a connection

`esl_connect` answers the first message of the server with the password, and succeeds where the second
accepts it.
-/

namespace CallCenter.Verified.EslHandshake

open CallCenter.Foundation (Text)
open CallCenter.Foundation.Framing
open CallCenter.Model
open CallCenter.Verified.EslReceiving CallCenter.Verified.EslChannel

variable {fresh : Nat → Char} {createJson : Text → Option EslEvent}

/-- A notice that ends the connection at once. -/
def Disconnects (event : EslEvent) : Prop :=
  safeStrcaseeq (event.getHeader "content-type".toList) "text/disconnect-notice" = true ∧ event.body.isSome = true ∧
    (strlenZero (event.getHeader "content-disposition".toList) = true ∨
      safeStrcaseeq (event.getHeader "content-disposition".toList) "linger" = false)

/-- What `parse_event` keeps, and when it fails. -/
theorem parseEvent_eq (event : EslEvent) (handle : EslHandle) :
    (Disconnects event → (parseEvent createJson event handle).1 = .fail) ∧
      (¬ Disconnects event → (parseEvent createJson event handle).1 = .success ∧
        (parseEvent createJson event handle).2.connected = handle.connected) ∧
      (parseEvent createJson event handle).2.written = handle.written := by
  rw [parseEvent]
  dsimp only
  split
  · rename_i notice
    exact ⟨fun _ => rfl, fun noNotice => absurd notice noNotice, rfl⟩
  · rename_i noNotice
    refine ⟨fun notice => absurd notice noNotice, fun _ => ?_, ?_⟩
    all_goals
      split
      · first | exact ⟨rfl, rfl⟩ | rfl
      · split
        · first | exact ⟨rfl, rfl⟩ | rfl
        · split <;> first | exact ⟨rfl, rfl⟩ | rfl

/-- What receiving ends with, where the queue is empty or not looked at. -/
def ReturnsFrom (fresh : Nat → Char) (createJson : Text → Option EslEvent) (checkQ : Bool) (handle : EslHandle)
    (socket : List Recv) : Option (Except EslFault EslEvent × Text) → Prop
  | some (.ok event, rest) =>
    ∃ packetBuf left, eslRecvEvent fresh createJson checkQ handle socket =
        .ok ((parseEvent createJson event { handle with lastIevent := none, packetBuf }).1,
          (parseEvent createJson event { handle with lastIevent := none, packetBuf }).2, left) ∧
      Roomy packetBuf left ∧ stream { handle with packetBuf } left = rest
  | some (.error fault, _) => eslRecvEvent fresh createJson checkQ handle socket = .error (.fault fault)
  | none =>
    if fails socket then
      ∃ after left, eslRecvEvent fresh createJson checkQ handle socket = .ok (.fail, after, left)
    else eslRecvEvent fresh createJson checkQ handle socket = .error .waiting

theorem eslRecvEvent_eq (checkQ : Bool) {handle : EslHandle} {socket : List Recv} (connected : handle.connected = true)
    (nothing : checkQ = true → handle.raceEvent = []) (roomy : EslReceiving.Roomy handle.packetBuf socket) :
    ReturnsFrom fresh createJson checkQ handle socket (nextMessage (stream handle socket)) := by
  have next : nextEvent fresh checkQ handle socket = _ := nextEvent_unqueued handle connected nothing socket
  have receives := receiveMessage_eq fresh { handle with lastIevent := none } roomy
  rw [show stream { handle with lastIevent := none } socket = stream handle socket from rfl] at receives
  cases isNext : nextMessage (stream handle socket) with
  | none =>
    rw [isNext, Receives] at receives
    rw [ReturnsFrom]
    split
    · rename_i ended
      rw [if_pos ended] at receives
      obtain ⟨packetBuf, left, received⟩ := receives
      rw [received] at next
      exact ⟨_, left, by rw [eslRecvEvent, next]; rfl⟩
    · rename_i still
      rw [if_neg still] at receives
      rw [eslRecvEvent, next, receives]
      rfl
  | some both =>
    obtain ⟨message, rest⟩ := both
    rw [isNext] at receives
    cases message with
    | error fault =>
      rw [Receives] at receives
      rw [ReturnsFrom, eslRecvEvent, next, receives]
      rfl
    | ok event =>
      obtain ⟨packetBuf, left, received, roomyAfter, streamAfter, -⟩ := receives
      rw [received] at next
      exact ⟨packetBuf, left, by rw [eslRecvEvent, next]; rfl, roomyAfter, streamAfter⟩

/-- The server asks for a password. -/
def Asks (event : EslEvent) : Prop :=
  safeStrcaseeq (event.getHeader "content-type".toList) "auth/request" = true

/-- The server accepts it. -/
def Accepts (event : EslEvent) : Prop :=
  safeStrcaseeq (event.getHeader "reply-text".toList) "+OK accepted" = true ∧ ¬ Disconnects event

instance (event : EslEvent) : Decidable (Asks event) := inferInstanceAs (Decidable (_ = true))

theorem no_disconnect_of_asks {event : EslEvent} (asks : Asks event) : ¬ Disconnects event := by
  rintro ⟨notice, -⟩
  rw [Asks] at asks
  cases contentType : event.getHeader "content-type".toList with
  | none =>
    rw [contentType] at asks
    cases asks
  | some ct =>
    rw [contentType] at asks notice
    have same : strcaseeq "auth/request".toList "text/disconnect-notice".toList = true := by
      rw [safeStrcaseeq, strcaseeq, beq_iff_eq] at asks notice
      rw [strcaseeq, beq_iff_eq, ← asks, notice]
    exact absurd same (by decide)

/-- The command with the password. -/
def authText (password : Text) : Text := snprintf 256 ("auth ".toList ++ password ++ "\n\n".toList)

theorem stream_connect (socket : List Recv) : stream .connect socket = arriving socket := by
  have empty : PacketBuffer.contents EslHandle.connect.packetBuf = [] := List.take_zero
  rw [stream, empty, List.nil_append]

theorem eslRecvEvent_lost {checkQ : Bool} {handle : EslHandle} (lost : handle.connected = false) (socket : List Recv) :
    eslRecvEvent fresh createJson checkQ handle socket = .ok (.fail, { handle with connected := false }, socket) := by
  rw [eslRecvEvent, nextEvent, if_pos lost]
  rfl

/-- `esl_connect` behind the password. -/
def answered (fresh : Nat → Char) (createJson : Text → Option EslEvent) (handle : EslHandle) (socket : List Recv) :
    Except EslStop (EslStatus × EslHandle × List Recv) := do
  let (status, handle, socket) ← eslRecvEvent fresh createJson false handle socket
  if status ≠ .success then pure (.fail, { handle with connected := false }, socket)
  else if safeStrcaseeq (handle.lastEvent.bind (·.getHeader "reply-text".toList)) "+OK accepted" = false then
    pure (.fail, { handle with connected := false }, socket)
  else pure (.success, handle, socket)

/-- What an open connection is like behind a step of its start. -/
structure Opened (handle : EslHandle) (socket : List Recv) (rest written : Text) : Prop where
  connected : handle.connected = true
  queue : handle.raceEvent = []
  roomy : EslReceiving.Roomy handle.packetBuf socket
  stream : EslReceiving.stream handle socket = rest
  written : handle.written = written

/-- Behind a message that is no notice of a disconnect the connection is open as before. -/
theorem opened_parseEvent {handle : EslHandle} {socket left : List Recv} {text rest written : Text}
    (opened : Opened handle socket text written) {event : EslEvent} (noNotice : ¬ Disconnects event)
    {packetBuf : EslBuffer} (roomy : EslReceiving.Roomy packetBuf left)
    (behind : EslReceiving.stream { handle with packetBuf } left = rest) :
    Opened (parseEvent createJson event { handle with lastIevent := none, packetBuf }).2 left rest written := by
  obtain ⟨-, succeeds, sameWritten⟩ :=
    @parseEvent_eq createJson event { handle with lastIevent := none, packetBuf }
  obtain ⟨samePacketBuf, sameQueue, -⟩ :=
    parseEvent_keeps createJson event { handle with lastIevent := none, packetBuf }
  refine ⟨?_, ?_, ?_, ?_, ?_⟩
  · rw [(succeeds noNotice).2]
    exact opened.connected
  · rw [sameQueue]
    exact opened.queue
  · rw [samePacketBuf]
    exact roomy
  · rw [EslReceiving.stream, samePacketBuf]
    exact behind
  · rw [sameWritten]
    exact opened.written

/-- What becomes of an answer that was received. -/
theorem answered_event {handle : EslHandle} {socket left : List Recv} {event : EslEvent} {packetBuf : EslBuffer}
    (returned : eslRecvEvent fresh createJson false handle socket =
      .ok ((parseEvent createJson event { handle with lastIevent := none, packetBuf }).1,
        (parseEvent createJson event { handle with lastIevent := none, packetBuf }).2, left)) :
    (Accepts event → answered fresh createJson handle socket =
        .ok (.success, (parseEvent createJson event { handle with lastIevent := none, packetBuf }).2, left)) ∧
      (¬ Accepts event → ∃ after left, answered fresh createJson handle socket = .ok (.fail, after, left)) := by
  obtain ⟨fails, succeeds, -⟩ := @parseEvent_eq createJson event { handle with lastIevent := none, packetBuf }
  obtain ⟨-, -, last⟩ := parseEvent_keeps createJson event { handle with lastIevent := none, packetBuf }
  rw [answered, returned]
  generalize parseEvent createJson event { handle with lastIevent := none, packetBuf } = parsed at fails succeeds last
  obtain ⟨status, after⟩ := parsed
  dsimp only at fails succeeds last
  simp only [bind, Except.bind, last, Option.bind_some]
  refine ⟨fun accepts => ?_, fun refuses => ?_⟩
  · rw [if_neg (by rw [(succeeds accepts.2).1]; decide), if_neg (by rw [accepts.1]; decide)]
    rfl
  · by_cases failed : status ≠ .success
    · exact ⟨_, _, by rw [if_pos failed]; rfl⟩
    · have refused : safeStrcaseeq (event.getHeader "reply-text".toList) "+OK accepted" = false := by
        refine Bool.eq_false_iff.mpr fun accepted => refuses ⟨accepted, fun notice => failed ?_⟩
        rw [fails notice]
        decide
      exact ⟨_, _, by rw [if_neg failed, if_pos refused]; rfl⟩

/-- The answer was received and accepts the password. -/
theorem accepts_of_answered {handle after : EslHandle} {socket left : List Recv} {text written : Text}
    (opened : Opened handle socket text written)
    (isAnswered : answered fresh createJson handle socket = .ok (.success, after, left)) :
    ∃ answer rest, nextMessage text = some (.ok answer, rest) ∧ Accepts answer ∧ Opened after left rest written := by
  have returns := @eslRecvEvent_eq fresh createJson false handle socket opened.connected nofun opened.roomy
  rw [opened.stream] at returns
  cases isNext : nextMessage text with
  | none =>
    rw [isNext, ReturnsFrom] at returns
    split at returns
    · obtain ⟨_, _, returned⟩ := returns
      rw [answered, returned] at isAnswered
      cases isAnswered
    · rw [answered, returns] at isAnswered
      cases isAnswered
  | some both =>
    obtain ⟨message, rest⟩ := both
    rw [isNext] at returns
    cases message with
    | error fault =>
      rw [ReturnsFrom] at returns
      rw [answered, returns] at isAnswered
      cases isAnswered
    | ok event =>
      obtain ⟨packetBuf, left', returned, roomyAfter, streamAfter⟩ := returns
      obtain ⟨accepted, refused⟩ := answered_event returned
      by_cases accepts : Accepts event
      · rw [accepted accepts] at isAnswered
        have openedHere :=
          @opened_parseEvent createJson handle socket left' text rest written opened event accepts.2
          packetBuf roomyAfter streamAfter
        have same : (parseEvent createJson event { handle with lastIevent := none, packetBuf }).2 = after ∧
            left' = left := by
          simpa using isAnswered
        rw [same.1, same.2] at openedHere
        exact ⟨event, rest, rfl, accepts, openedHere⟩
      · obtain ⟨_, _, isRefused⟩ := refused accepts
        rw [isRefused] at isAnswered
        cases isAnswered

theorem answered_of_accepts {handle : EslHandle} {socket : List Recv} {text rest written : Text} {answer : EslEvent}
    (opened : Opened handle socket text written) (isNext : nextMessage text = some (.ok answer, rest))
    (accepts : Accepts answer) :
    ∃ after left, answered fresh createJson handle socket = .ok (.success, after, left) := by
  have returns := @eslRecvEvent_eq fresh createJson false handle socket opened.connected nofun opened.roomy
  rw [opened.stream, isNext] at returns
  obtain ⟨packetBuf, left, returned, -⟩ := returns
  exact ⟨_, left, (answered_event returned).1 accepts⟩

/-- What becomes of a first message that was received. -/
theorem eslConnect_event {socket left : List Recv} {event : EslEvent} {packetBuf : EslBuffer} (password : Text)
    (sent : Bool)
    (returned : eslRecvEvent fresh createJson false .connect socket =
      .ok ((parseEvent createJson event { EslHandle.connect with lastIevent := none, packetBuf }).1,
        (parseEvent createJson event { EslHandle.connect with lastIevent := none, packetBuf }).2, left)) :
    (Asks event → eslConnect fresh createJson password sent socket =
        answered fresh createJson (eslSend (authText password) sent
          (parseEvent createJson event { EslHandle.connect with lastIevent := none, packetBuf }).2).2 left) ∧
      (¬ Asks event → ∃ after left, eslConnect fresh createJson password sent socket = .ok (.fail, after, left)) := by
  obtain ⟨-, succeeds, -⟩ := @parseEvent_eq createJson event { EslHandle.connect with lastIevent := none, packetBuf }
  obtain ⟨-, -, last⟩ := parseEvent_keeps createJson event { EslHandle.connect with lastIevent := none, packetBuf }
  rw [eslConnect, returned]
  generalize parseEvent createJson event { EslHandle.connect with lastIevent := none, packetBuf } = parsed
    at succeeds last
  obtain ⟨status, after⟩ := parsed
  dsimp only at succeeds last
  simp only [bind, Except.bind, last, Option.bind_some]
  refine ⟨fun asks => ?_, fun asksNot => ?_⟩
  · have success := (succeeds (no_disconnect_of_asks asks)).1
    rw [Asks] at asks
    rw [if_neg (by rw [success]; decide), if_neg (by rw [asks]; decide)]
    rfl
  · by_cases failed : status ≠ .success
    · exact ⟨_, _, by rw [if_pos failed]; rfl⟩
    · have notAsked : safeStrcaseeq (event.getHeader "content-type".toList) "auth/request" = false :=
        Bool.eq_false_iff.mpr asksNot
      exact ⟨_, _, by rw [if_neg failed, if_pos notAsked]; rfl⟩

theorem opened_send {handle : EslHandle} {socket : List Recv} {rest : Text} (opened : Opened handle socket rest [])
    (cmd : Text) : Opened (eslSend cmd true handle).2 socket rest (sentText cmd) := by
  rw [eslSend, if_neg (by rw [opened.connected]; decide), if_pos rfl]
  refine ⟨opened.connected, opened.queue, opened.roomy, opened.stream, ?_⟩
  rw [opened.written, List.nil_append]

theorem lost_send (cmd : Text) (handle : EslHandle) : (eslSend cmd false handle).2.connected = false := by
  rw [eslSend]
  split
  · assumption
  · rfl

theorem opened_connect {socket : List Recv} (few : (arriving socket).length < bufStart) :
    Opened .connect socket (arriving socket) [] :=
  ⟨rfl, rfl, roomy_connect few, stream_connect socket, rfl⟩

/-- The first messages of a stream are a request for the password and an answer that accepts it. -/
structure Welcomes (text rest : Text) (request answer : EslEvent) : Prop where
  messages : Decodes nextMessage text [.ok request, .ok answer] rest
  asks : Asks request
  accepts : Accepts answer

/-- A connection that was made was made by such a server, and is open behind its answer. -/
theorem welcomes_of_connected {handle : EslHandle} {socket left : List Recv}
    (few : (arriving socket).length < bufStart) {password : Text} {sent : Bool}
    (isConnected : eslConnect fresh createJson password sent socket = .ok (.success, handle, left)) :
    sent = true ∧ ∃ request answer rest, Welcomes (arriving socket) rest request answer ∧
      Opened handle left rest (sentText (authText password)) := by
  have returns := @eslRecvEvent_eq fresh createJson false .connect socket rfl nofun (roomy_connect few)
  rw [stream_connect] at returns
  cases isNext : nextMessage (arriving socket) with
  | none =>
    rw [isNext, ReturnsFrom] at returns
    split at returns
    · obtain ⟨_, _, returned⟩ := returns
      rw [eslConnect, returned] at isConnected
      cases isConnected
    · rw [eslConnect, returns] at isConnected
      cases isConnected
  | some both =>
    obtain ⟨message, middle⟩ := both
    rw [isNext] at returns
    cases message with
    | error fault =>
      rw [ReturnsFrom] at returns
      rw [eslConnect, returns] at isConnected
      cases isConnected
    | ok request =>
      obtain ⟨packetBuf, left', returned, roomyAfter, streamAfter⟩ := returns
      obtain ⟨asked, notAsked⟩ := eslConnect_event password sent returned
      by_cases asks : Asks request
      · rw [asked asks] at isConnected
        have openedHere := @opened_parseEvent createJson .connect socket left' _ middle [] (opened_connect few) request
          (no_disconnect_of_asks asks) packetBuf roomyAfter streamAfter
        cases sent with
        | false =>
          rw [answered, eslRecvEvent_lost (lost_send _ _)] at isConnected
          cases isConnected
        | true =>
          obtain ⟨answer, rest, isAnswer, accepts, opened⟩ :=
            accepts_of_answered (opened_send openedHere (authText password)) isConnected
          exact ⟨rfl, request, answer, rest, ⟨.next isNext (.single isAnswer), asks, accepts⟩, opened⟩
      · obtain ⟨_, _, isRefused⟩ := notAsked asks
        rw [isRefused] at isConnected
        cases isConnected

theorem connected_of_welcomes {socket : List Recv} (few : (arriving socket).length < bufStart) (password : Text)
    {request answer : EslEvent} {rest : Text} (welcomes : Welcomes (arriving socket) rest request answer) :
    ∃ handle left, eslConnect fresh createJson password true socket = .ok (.success, handle, left) := by
  have returns := @eslRecvEvent_eq fresh createJson false .connect socket rfl nofun (roomy_connect few)
  obtain ⟨decodes, asks, accepts⟩ := welcomes
  cases decodes with
  | next first others =>
    cases others with
    | next second last =>
      rw [stream_connect, first] at returns
      obtain ⟨packetBuf, left, returned, roomyAfter, streamAfter⟩ := returns
      have openedHere := @opened_parseEvent createJson .connect socket left _ _ [] (opened_connect few) request
        (no_disconnect_of_asks asks) packetBuf roomyAfter streamAfter
      rw [(eslConnect_event password true returned).1 asks]
      exact answered_of_accepts (opened_send openedHere (authText password)) second accepts

/-- `esl_connect` succeeds where the server asks for the password first and then accepts it.  The password
goes out once then, and the messages behind the two are left for the loop. -/
theorem connects_iff {socket : List Recv} (few : (arriving socket).length < bufStart) (password : Text)
    (sent : Bool) :
    ((∃ handle left, eslConnect fresh createJson password sent socket = .ok (.success, handle, left)) ↔
      sent = true ∧ ∃ request answer rest, Welcomes (arriving socket) rest request answer) ∧
    ∀ handle left, eslConnect fresh createJson password sent socket = .ok (.success, handle, left) →
      ∃ request answer rest, Welcomes (arriving socket) rest request answer ∧
        Opened handle left rest (sentText (authText password)) := by
  refine ⟨⟨?_, ?_⟩, fun handle left isConnected => (welcomes_of_connected few isConnected).2⟩
  · rintro ⟨handle, left, isConnected⟩
    obtain ⟨isSent, request, answer, rest, welcomes, -⟩ := welcomes_of_connected few isConnected
    exact ⟨isSent, request, answer, rest, welcomes⟩
  · rintro ⟨rfl, request, answer, rest, welcomes⟩
    exact connected_of_welcomes few password welcomes

/-- A server that accepts, in three reads of the socket. -/
def acceptingServer : List Recv :=
  [.data "content-type:auth/request\n".toList, .data "\nreply-text:+OK".toList, .data " accepted\n\n".toList]

theorem connects_iff_accepted :
    ((∃ handle left, eslConnect (fun _ => 'x') (fun _ => none) "pass".toList true acceptingServer =
          .ok (.success, handle, left)) ↔
      true = true ∧ ∃ request answer rest, Welcomes (arriving acceptingServer) rest request answer) ∧
    ∀ handle left, eslConnect (fun _ => 'x') (fun _ => none) "pass".toList true acceptingServer =
        .ok (.success, handle, left) →
      ∃ request answer rest, Welcomes (arriving acceptingServer) rest request answer ∧
        Opened handle left rest (sentText (authText "pass".toList)) :=
  connects_iff (by decide) "pass".toList true

end CallCenter.Verified.EslHandshake
