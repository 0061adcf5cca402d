import CallCenter.Foundation.Runs
import CallCenter.Verified.EslReceiving

/-!
# A connection shared by threads

One thread receives events, and any thread may send a command and wait for its reply on the same
connection.  Each message of the stream is received once, by one of them: as an event or as a reply.
-/

namespace CallCenter.Verified.EslChannel

open CallCenter.Foundation (Text Run)
open CallCenter.Foundation.Framing
open CallCenter.Model
open CallCenter.Verified.EslReceiving

/-- A connection, with all that its socket is going to deliver. -/
structure Channel where
  handle : EslHandle
  socket : List Recv
  deriving DecidableEq, Repr

/-- What the threads that hold the mutex in turn do with the connection. -/
inductive Move where
  | take (event : EslEvent)
  | reply (event : EslEvent)
  | queue (event : EslEvent)
  | send (cmd : Text) (sent : Bool)
  | fail
  deriving DecidableEq, Repr

/-- The events received, in order. -/
def taken (moves : List Move) : List EslEvent :=
  moves.filterMap fun move => match move with | .take event => some event | _ => none

/-- The replies received, in order. -/
def replied (moves : List Move) : List EslEvent :=
  moves.filterMap fun move => match move with | .reply event => some event | _ => none

section Moves

variable (fresh : Nat → Char) (createJson : Text → Option EslEvent)

/-- `esl_recv_event(handle, 1, NULL)`, and of `esl_send_recv` the sending and each round. -/
inductive Moves : Channel → Move → Channel → Prop where
  | take {channel : Channel} {event : EslEvent} {handle : EslHandle} {socket : List Recv}
      (next : nextEvent fresh true channel.handle channel.socket = .ok (some event, handle, socket)) :
      Moves channel (.take event) ⟨(parseEvent createJson event handle).2, socket⟩
  | takeNone {channel : Channel} {handle : EslHandle} {socket : List Recv}
      (next : nextEvent fresh true channel.handle channel.socket = .ok (none, handle, socket)) :
      Moves channel .fail ⟨{ handle with connected := false }, socket⟩
  | reply {channel after : Channel} {event : EslEvent}
      (round : recvRound fresh channel.handle channel.socket = .ok (some .success, after.handle, after.socket))
      (replied : after.handle.lastSrEvent = some event) : Moves channel (.reply event) after
  | queue {channel after : Channel} {event : EslEvent}
      (round : recvRound fresh channel.handle channel.socket = .ok (none, after.handle, after.socket))
      (queued : after.handle.raceEvent.getLast? = some event) : Moves channel (.queue event) after
  | failRound {channel after : Channel}
      (round : recvRound fresh channel.handle channel.socket = .ok (some .fail, after.handle, after.socket)) :
      Moves channel .fail after
  | send {channel : Channel} (cmd : Text) (sent : Bool) (connected : channel.handle.connected = true) :
      Moves channel (.send cmd sent)
        { channel with handle := (eslSend cmd sent { channel.handle with lastSrEvent := none, lastSrReply := [] }).2 }

end Moves

/-- The bytes that no message was read from yet. -/
abbrev Channel.stream (channel : Channel) : Text := EslReceiving.stream channel.handle channel.socket

abbrev Channel.Roomy (channel : Channel) : Prop := EslReceiving.Roomy channel.handle.packetBuf channel.socket

/-! ## One move -/

variable {fresh : Nat → Char} {createJson : Text → Option EslEvent}

/-- The part of a handle that the messages go through is left alone by `parse_event`. -/
theorem parseEvent_keeps (createJson : Text → Option EslEvent) (event : EslEvent) (handle : EslHandle) :
    (parseEvent createJson event handle).2.packetBuf = handle.packetBuf ∧
      (parseEvent createJson event handle).2.raceEvent = handle.raceEvent ∧
      (parseEvent createJson event handle).2.lastEvent = some event := by
  rw [parseEvent]
  dsimp only
  split
  · exact ⟨rfl, rfl, rfl⟩
  · split
    · exact ⟨rfl, rfl, rfl⟩
    · split
      · exact ⟨rfl, rfl, rfl⟩
      · split <;> exact ⟨rfl, rfl, rfl⟩

/-- The next event comes off the queue, or off the stream where the queue is not looked at or empty. -/
theorem nextEvent_some {checkQ : Bool} {handle after : EslHandle} {socket left : List Recv} {event : EslEvent}
    (roomy : EslReceiving.Roomy handle.packetBuf socket)
    (next : nextEvent fresh checkQ handle socket = .ok (some event, after, left)) :
    handle.connected = true ∧ after.connected = true ∧
      ((checkQ = true ∧ handle.raceEvent = event :: after.raceEvent ∧ after.packetBuf = handle.packetBuf ∧
          left = socket) ∨
        ((checkQ = true → handle.raceEvent = []) ∧ after.raceEvent = handle.raceEvent ∧
          EslReceiving.Roomy after.packetBuf left ∧
          nextMessage (stream handle socket) = some (.ok event, stream after left))) := by
  rw [nextEvent] at next
  split at next
  · cases next
  · rename_i connected
    have connected : handle.connected = true := by simpa using connected
    refine ⟨connected, ?_⟩
    dsimp only at next
    split at next
    · rename_i first rest queued
      cases next
      cases checkQ with
      | true => exact ⟨connected, .inl ⟨rfl, queued, rfl, rfl⟩⟩
      | false => cases queued
    · rename_i nothing
      obtain ⟨packetBuf, same, roomyAfter, isNext⟩ :=
        next_of_received { handle with lastIevent := none } roomy next
      refine ⟨by rw [same]; exact connected, .inr ⟨fun checked => ?_, by rw [same],
        by rw [same]; exact roomyAfter, isNext⟩⟩
      rw [checked] at nothing
      exact nothing

/-- Where there is no next event, the connection was lost before or is lost now. -/
theorem nextEvent_none {checkQ : Bool} {handle after : EslHandle} {socket left : List Recv}
    (roomy : EslReceiving.Roomy handle.packetBuf socket)
    (next : nextEvent fresh checkQ handle socket = .ok (none, after, left)) :
    after.raceEvent = handle.raceEvent := by
  rw [nextEvent] at next
  split at next
  · cases next
    rfl
  · dsimp only at next
    split at next
    · cases next
    · obtain ⟨⟨packetBuf, same⟩, -⟩ :=
        none_of_failed { handle with lastIevent := none } roomy next
      rw [same]

/-- The handle a round waits with. -/
def cleared (handle : EslHandle) : EslHandle :=
  { handle with lastSrEvent := none, lastSrReply := [], lastIevent := none }

/-- What a round does with the message it waited for. -/
def roundWith : Option EslEvent × EslHandle × List Recv → Option EslStatus × EslHandle × List Recv
  | (none, after, left) => (some .fail, { after with connected := false }, left)
  | (some event, after, left) =>
    if isRaceEvent event then (none, { after with raceEvent := after.raceEvent ++ [event] }, left)
    else
      let hval := event.getHeader "reply-text".toList
      (some .success,
        { after with
          lastSrEvent := some event
          lastSrReply := if strlenZero hval then after.lastSrReply else (hval.getD []).take 1024 }, left)

theorem nextEvent_unqueued (handle : EslHandle) {checkQ : Bool} (connected : handle.connected = true)
    (nothing : checkQ = true → handle.raceEvent = []) (socket : List Recv) :
    nextEvent fresh checkQ handle socket = receiveMessage fresh { handle with lastIevent := none } socket := by
  rw [nextEvent, if_neg (by rw [connected]; decide)]
  dsimp only
  split
  · rename_i queued
    cases checkQ with
    | false => cases queued
    | true =>
      rw [if_pos rfl, nothing rfl] at queued
      cases queued
  · rfl

theorem recvRound_eq {handle : EslHandle} (connected : handle.connected = true) (socket : List Recv) :
    recvRound fresh handle socket = (receiveMessage fresh (cleared handle) socket).map roundWith := by
  rw [recvRound, if_neg (by rw [connected]; decide)]
  have next : nextEvent fresh false { handle with lastSrEvent := none, lastSrReply := [] } socket =
      receiveMessage fresh (cleared handle) socket :=
    nextEvent_unqueued { handle with lastSrEvent := none, lastSrReply := [] } connected (by nofun) socket
  dsimp only
  rw [eslRecvSaving, next]
  cases received : receiveMessage fresh (cleared handle) socket with
  | error stop => rfl
  | ok result =>
    obtain ⟨message, after, left⟩ := result
    cases message with
    | none => rfl
    | some event =>
      simp only [bind, Except.bind, pure, Except.pure, Except.map, roundWith]
      split <;> rfl

/-- What a round does with the next message: it is queued, or it is the reply. -/
theorem recvRound_cases {handle after : EslHandle} {socket left : List Recv} {status : Option EslStatus}
    (roomy : EslReceiving.Roomy handle.packetBuf socket)
    (round : recvRound fresh handle socket = .ok (status, after, left)) :
    (status = some .fail ∧ after.connected = false ∧ after.raceEvent = handle.raceEvent) ∨
      ∃ event, EslReceiving.Roomy after.packetBuf left ∧
        nextMessage (stream handle socket) = some (.ok event, stream after left) ∧
        ((status = none ∧ isRaceEvent event = true ∧ after.raceEvent = handle.raceEvent ++ [event]) ∨
          (status = some .success ∧ isRaceEvent event = false ∧ after.raceEvent = handle.raceEvent ∧
            after.lastSrEvent = some event)) := by
  cases connected : handle.connected with
  | false =>
    rw [recvRound, if_pos connected] at round
    cases round
    exact .inl ⟨rfl, connected, rfl⟩
  | true =>
    rw [recvRound_eq connected] at round
    cases received : receiveMessage fresh (cleared handle) socket with
    | error stop =>
      rw [received] at round
      cases round
    | ok result =>
      obtain ⟨message, reached, socket'⟩ := result
      rw [received] at round
      cases message with
      | none =>
        obtain ⟨⟨packetBuf, rfl⟩, -⟩ := none_of_failed (cleared handle) roomy received
        cases round
        exact .inl ⟨rfl, rfl, rfl⟩
      | some event =>
        obtain ⟨packetBuf, rfl, roomyAfter, isNext⟩ := next_of_received (cleared handle) roomy received
        refine .inr ⟨event, ?_⟩
        simp only [Except.map, roundWith] at round
        split at round
        · rename_i race
          cases round
          exact ⟨roomyAfter, isNext, .inl ⟨rfl, race, rfl⟩⟩
        · rename_i notRace
          cases round
          exact ⟨roomyAfter, isNext, .inr ⟨rfl, by simpa using notRace, rfl, rfl⟩⟩

/-! ## Calls as moves -/

theorem eslSend_keeps (cmd : Text) (sent : Bool) (handle : EslHandle) :
    (eslSend cmd sent handle).2.packetBuf = handle.packetBuf ∧
      (eslSend cmd sent handle).2.raceEvent = handle.raceEvent := by
  rw [eslSend]
  split
  · exact ⟨rfl, rfl⟩
  · split <;> exact ⟨rfl, rfl⟩

/-- Receiving an event is one move. -/
theorem moves_of_eslRecvEvent {handle after : EslHandle} {socket left : List Recv} {status : EslStatus}
    (returned : eslRecvEvent fresh createJson true handle socket = .ok (status, after, left)) :
    ∃ move, Moves fresh createJson ⟨handle, socket⟩ move ⟨after, left⟩ ∧
      (status = .success → ∃ event, move = .take event ∧ after.lastEvent = some event) := by
  rw [eslRecvEvent] at returned
  cases next : nextEvent fresh true handle socket with
  | error stop =>
    rw [next] at returned
    cases returned
  | ok result =>
    obtain ⟨event, reached, socket'⟩ := result
    rw [next] at returned
    cases event with
    | none =>
      cases returned
      exact ⟨.fail, .takeNone next, nofun⟩
    | some event =>
      cases returned
      exact ⟨.take event, .take next, fun _ => ⟨event, rfl, (parseEvent_keeps createJson event reached).2.2⟩⟩

/-- The rounds of a command are moves, of which the last gets the reply. -/
theorem run_of_recvRounds (createJson : Text → Option EslEvent) {rounds : Nat} {handle after : EslHandle}
    {socket left : List Recv} {status : EslStatus}
    (roomy : EslReceiving.Roomy handle.packetBuf socket)
    (returned : recvRounds fresh rounds handle socket = .ok (status, after, left)) :
    ∃ moves, Run (Moves fresh createJson) ⟨handle, socket⟩ moves ⟨after, left⟩ ∧
      (status = .success → ∃ event, replied moves = [event] ∧ after.lastSrEvent = some event) := by
  induction rounds generalizing handle socket with
  | zero => cases returned
  | succ rounds inductionHypothesis =>
    rw [recvRounds] at returned
    cases round : recvRound fresh handle socket with
    | error stop =>
      rw [round] at returned
      cases returned
    | ok result =>
      obtain ⟨ended, middle, socket'⟩ := result
      rw [round] at returned
      obtain ⟨rfl, -, -⟩ | ⟨event, roomyMiddle, -, ⟨rfl, -, queue⟩ | ⟨rfl, -, -, saved⟩⟩ :=
        recvRound_cases roomy round
      · cases returned
        exact ⟨[.fail], .single (.failRound round), nofun⟩
      · obtain ⟨moves, run, last⟩ := inductionHypothesis roomyMiddle returned
        refine ⟨.queue event :: moves, .next (.queue round ?_) run, last⟩
        rw [queue, List.getLast?_concat]
      · cases returned
        exact ⟨[.reply event], .single (.reply round saved), fun _ => ⟨event, rfl, saved⟩⟩

/-- So is a command with its reply. -/
theorem run_of_eslSendRecv {cmd : Text} {sent : Bool} {handle after : EslHandle} {socket left : List Recv}
    {status : EslStatus} (roomy : EslReceiving.Roomy handle.packetBuf socket)
    (returned : eslSendRecv fresh cmd sent handle socket = .ok (status, after, left)) :
    ∃ moves, Run (Moves fresh createJson) ⟨handle, socket⟩ moves ⟨after, left⟩ ∧
      (status = .success → ∃ event, replied moves = [event] ∧ after.lastSrEvent = some event) := by
  rw [eslSendRecv] at returned
  split at returned
  · cases returned
    exact ⟨[], .done _, nofun⟩
  · rename_i connected
    have connected : handle.connected = true := by simpa using connected
    have sends : Moves fresh createJson ⟨handle, socket⟩ _ _ := .send cmd sent connected
    obtain ⟨packetBuf, -⟩ := eslSend_keeps cmd sent { handle with lastSrEvent := none, lastSrReply := [] }
    split at returned
    · rename_i middle result
      rw [result] at sends
      cases returned
      exact ⟨[.send cmd sent], .single sends, nofun⟩
    · rename_i middle result
      rw [result] at sends packetBuf
      have roomyMiddle : EslReceiving.Roomy middle.packetBuf socket := by
        rw [packetBuf]
        exact roomy
      obtain ⟨moves, run, last⟩ := run_of_recvRounds createJson roomyMiddle returned
      exact ⟨.send cmd sent :: moves, .next sends run, last⟩

/-! ## Commands -/

/-- A message takes at least one byte. -/
theorem nextMessage_shorter {text rest : Text} {message : Except EslFault EslEvent}
    (found : nextMessage text = some (message, rest)) : rest.length < text.length := by
  rw [nextMessage] at found
  cases isPacket : nextPacket text with
  | none =>
    rw [isPacket] at found
    cases found
  | some both =>
    obtain ⟨packet, behind⟩ := both
    obtain ⟨length, isLength, same⟩ := Option.map_eq_some_iff.mp isPacket
    obtain ⟨some, within⟩ := PacketBuffer.packetIn_le isLength
    have shorter : behind.length < text.length := by
      cases same
      rw [List.length_drop, socketBufSize]
      omega
    rw [isPacket] at found
    dsimp only at found
    split at found
    · cases found
      exact shorter
    · split at found
      · cases found
        exact shorter
      · obtain ⟨⟨body, left⟩, isBody, same⟩ := Option.map_eq_some_iff.mp found
        cases same
        rw [nextBody] at isBody
        split at isBody
        · cases isBody
          rw [List.length_drop]
          omega
        · cases isBody

theorem length_of_decodes {text rest : Text} {messages : List (Except EslFault EslEvent)}
    (decodes : Decodes nextMessage text messages rest) : messages.length + rest.length ≤ text.length := by
  induction decodes with
  | done => simp
  | next first _ inductionHypothesis =>
    have shorter := nextMessage_shorter first
    rw [List.length_cons]
    omega

theorem length_arriving (socket : List Recv) :
    (arriving socket).length ≤
      (socket.map fun recv => match recv with | .data bytes => bytes.length | _ => 0).sum := by
  induction socket using arriving.induct with
  | case1 => rfl
  | case2 bytes socket inductionHypothesis =>
    simp only [arriving, List.length_append, List.map_cons, List.sum_cons]
    omega
  | case3 socket inductionHypothesis =>
    simp only [arriving, List.map_cons, List.sum_cons, Nat.zero_add]
    exact inductionHypothesis
  | case4 socket => exact Nat.zero_le _

/-- Every message that is still to come leaves `esl_send_recv` a round. -/
theorem length_stream {handle : EslHandle} {socket : List Recv} (roomy : EslReceiving.Roomy handle.packetBuf socket) :
    (stream handle socket).length ≤ pending handle socket := by
  rw [stream, List.length_append, PacketBuffer.length_contents roomy.placed, pending, EslBuffer.inuse]
  exact Nat.add_le_add_left (length_arriving socket) _

/-- A round where a message is there. -/
theorem recvRound_next (fresh : Nat → Char) {handle : EslHandle} {socket : List Recv} {event : EslEvent} {rest : Text}
    (connected : handle.connected = true) (roomy : EslReceiving.Roomy handle.packetBuf socket)
    (isNext : nextMessage (stream handle socket) = some (.ok event, rest)) :
    ∃ after left, EslReceiving.Roomy after.packetBuf left ∧ stream after left = rest ∧ after.connected = true ∧
      after.written = handle.written ∧
      (isRaceEvent event = true →
        recvRound fresh handle socket = .ok (none, after, left) ∧ after.raceEvent = handle.raceEvent ++ [event]) ∧
      (isRaceEvent event = false →
        recvRound fresh handle socket = .ok (some .success, after, left) ∧ after.raceEvent = handle.raceEvent ∧
          after.lastSrEvent = some event) := by
  have receives := receiveMessage_eq fresh (cleared handle) roomy
  rw [show stream (cleared handle) socket = stream handle socket from rfl, isNext] at receives
  obtain ⟨packetBuf, left, received, roomyAfter, streamAfter, -⟩ := receives
  rw [recvRound_eq connected, received]
  cases race : isRaceEvent event with
  | true =>
    refine ⟨{ cleared handle with packetBuf, raceEvent := handle.raceEvent ++ [event] }, left, roomyAfter, streamAfter,
      connected, rfl, fun _ => ⟨?_, rfl⟩, nofun⟩
    simp only [Except.map, roundWith, race, if_true]
    rfl
  | false =>
    refine ⟨{ cleared handle with
      packetBuf
      lastSrEvent := some event
      lastSrReply :=
        if strlenZero (event.getHeader "reply-text".toList) then []
        else ((event.getHeader "reply-text".toList).getD []).take 1024 },
      left, roomyAfter, streamAfter, connected, rfl, nofun, fun _ => ⟨?_, rfl, rfl⟩⟩
    simp only [Except.map, roundWith, race, Bool.false_eq_true, if_false]
    rfl

theorem recvRounds_reply {rounds : Nat} {handle : EslHandle} {socket : List Recv} {events : List EslEvent}
    {reply : EslEvent} {rest : Text} (enough : events.length < rounds) (connected : handle.connected = true)
    (roomy : EslReceiving.Roomy handle.packetBuf socket)
    (decodes : Decodes nextMessage (stream handle socket) ((events ++ [reply]).map .ok) rest)
    (races : ∀ event ∈ events, isRaceEvent event = true) (isReply : isRaceEvent reply = false) :
    ∃ after left, recvRounds fresh rounds handle socket = .ok (.success, after, left) ∧
      after.lastSrEvent = some reply ∧ after.raceEvent = handle.raceEvent ++ events ∧ after.connected = true ∧
      after.written = handle.written ∧ EslReceiving.Roomy after.packetBuf left ∧ stream after left = rest := by
  induction events generalizing rounds handle socket with
  | nil =>
    obtain ⟨rounds, rfl⟩ := Nat.exists_eq_succ_of_ne_zero (Nat.ne_of_gt enough)
    cases decodes with
    | next first others =>
      cases others
      obtain ⟨after, left, roomyAfter, streamAfter, still, written, -, replies⟩ :=
        recvRound_next fresh connected roomy first
      obtain ⟨round, queue, saved⟩ := replies isReply
      refine ⟨after, left, ?_, saved, by rw [queue, List.append_nil], still, written, roomyAfter, streamAfter⟩
      rw [recvRounds, round]
      rfl
  | cons event events inductionHypothesis =>
    obtain ⟨rounds, rfl⟩ := Nat.exists_eq_succ_of_ne_zero (Nat.ne_of_gt (Nat.lt_of_le_of_lt (Nat.zero_le _) enough))
    rw [List.length_cons, Nat.succ_lt_succ_iff] at enough
    rw [List.forall_mem_cons] at races
    cases decodes with
    | next first others =>
      obtain ⟨middle, behind, roomyMiddle, streamMiddle, still, written, queues, -⟩ :=
        recvRound_next fresh connected roomy first
      obtain ⟨round, queue⟩ := queues races.1
      rw [← streamMiddle] at others
      obtain ⟨after, left, returned, saved, queueAfter, last, writtenAfter, roomyAfter, streamAfter⟩ :=
        inductionHypothesis enough still roomyMiddle others races.2
      refine ⟨after, left, ?_, saved, ?_, last, by rw [writtenAfter, written], roomyAfter, streamAfter⟩
      · rw [recvRounds, round]
        exact returned
      · rw [queueAfter, queue, List.append_assoc]
        rfl

/-- A command whose thread keeps the connection to itself gets the first reply of the stream, and the
events in front of it are queued in their order. -/
theorem first_reply {handle : EslHandle} {socket : List Recv} {events : List EslEvent} {reply : EslEvent} {rest : Text}
    (cmd : Text) (connected : handle.connected = true) (roomy : EslReceiving.Roomy handle.packetBuf socket)
    (decodes : Decodes nextMessage (stream handle socket) ((events ++ [reply]).map .ok) rest)
    (races : ∀ event ∈ events, isRaceEvent event = true) (isReply : isRaceEvent reply = false) :
    ∃ after left, eslSendRecv fresh cmd true handle socket = .ok (.success, after, left) ∧
      after.lastSrEvent = some reply ∧ after.raceEvent = handle.raceEvent ++ events ∧ after.connected = true ∧
      after.written = handle.written ++ sentText cmd ∧ EslReceiving.Roomy after.packetBuf left ∧
      stream after left = rest := by
  have many := length_of_decodes decodes
  have bytes := length_stream roomy
  rw [List.length_map, List.length_append, List.length_singleton] at many
  rw [eslSendRecv, if_neg (by rw [connected]; decide), eslSend, if_neg (by rw [connected]; decide), if_pos rfl]
  have enough : events.length < pending handle socket + 1 := by omega
  exact @recvRounds_reply fresh (pending handle socket + 1)
    { handle with lastSrEvent := none, lastSrReply := [], written := handle.written ++ sentText cmd } socket events
    reply rest enough connected roomy decodes races isReply

/-- An event and a reply behind it, the event in two reads. -/
def shortHandle : EslHandle := { connected := true, packetBuf := eslBufferCreate 16 64 0 }

def inPieces : List Recv := [.data "content-type:x\n".toList, .again, .data "\nr:1\n\n".toList]

theorem short_next :
    nextMessage (stream shortHandle inPieces) =
        some (.ok (parsePacket "content-type:x\n\n".toList), "r:1\n\n".toList) ∧
      nextMessage "r:1\n\n".toList = some (.ok (parsePacket "r:1\n\n".toList), []) ∧
      isRaceEvent (parsePacket "content-type:x\n\n".toList) = true ∧
      isRaceEvent (parsePacket "r:1\n\n".toList) = false := by
  decide +kernel

theorem short_roomy : EslReceiving.Roomy shortHandle.packetBuf inPieces := roomy_create 16 (by decide)

theorem first_reply_behind_event :
    ∃ after left,
      eslSendRecv (fun _ => 'x') "api status".toList true shortHandle inPieces = .ok (.success, after, left) ∧
      after.lastSrEvent = some (parsePacket "r:1\n\n".toList) ∧
      after.raceEvent = shortHandle.raceEvent ++ [parsePacket "content-type:x\n\n".toList] ∧
      after.connected = true ∧ after.written = shortHandle.written ++ sentText "api status".toList ∧
      EslReceiving.Roomy after.packetBuf left ∧ stream after left = [] := by
  obtain ⟨event, reply, race, isReply⟩ := short_next
  exact first_reply "api status".toList rfl short_roomy (.next event (.single reply))
    (fun _ member => by rw [List.mem_singleton.mp member]; exact race) isReply

/-! ## What was received -/

/-- Of the messages that came, those that were queued before and those still queued: each was received
once or is queued, events and replies in the order they came, and no reply is an event. -/
structure Accounts (moves : List Move) (before messages after : List EslEvent) : Prop where
  events : (taken moves ++ after).Sublist (before ++ messages)
  replies : (replied moves).Sublist messages
  once : (taken moves ++ replied moves ++ after).Perm (before ++ messages)
  apart : ∀ event ∈ replied moves, isRaceEvent event = false

theorem taken_append (earlier later : List Move) : taken (earlier ++ later) = taken earlier ++ taken later :=
  List.filterMap_append

theorem replied_append (earlier later : List Move) :
    replied (earlier ++ later) = replied earlier ++ replied later :=
  List.filterMap_append

theorem Accounts.trans {earlier later : List Move} {before messages middle messages' after : List EslEvent}
    (first : Accounts earlier before messages middle) (second : Accounts later middle messages' after) :
    Accounts (earlier ++ later) before (messages ++ messages') after where
  events := by
    rw [taken_append, List.append_assoc, ← List.append_assoc before]
    have more := second.events.append_left (taken earlier)
    rw [← List.append_assoc (taken earlier) middle] at more
    exact more.trans (first.events.append_right messages')
  replies := by
    rw [replied_append]
    exact first.replies.append second.replies
  once := by
    rw [taken_append, replied_append, ← List.append_assoc before]
    refine List.Perm.trans ?_ (first.once.append_right messages')
    rw [List.append_assoc _ middle]
    refine List.Perm.trans ?_ (second.once.append_left (taken earlier ++ replied earlier))
    refine List.perm_iff_count.mpr fun event => ?_
    simp only [List.count_append]
    omega
  apart := by
    intro event member
    rw [replied_append] at member
    exact (List.mem_append.mp member).elim (first.apart event) (second.apart event)

/-- A move that receives nothing. -/
theorem accounts_nothing {move : Move} (noEvent : taken [move] = []) (noReply : replied [move] = [])
    (queue : List EslEvent) : Accounts [move] queue [] queue where
  events := by
    rw [noEvent, List.nil_append, List.append_nil]
  replies := by rw [noReply]
  once := by
    rw [noEvent, noReply, List.nil_append, List.nil_append, List.append_nil]
  apart := by
    intro event member
    rw [noReply] at member
    cases member

/-- On a lost connection nothing is received. -/
theorem lost_move {before after : Channel} {move : Move} (moves : Moves fresh createJson before move after)
    (lost : before.handle.connected = false) :
    after.handle.connected = false ∧ Accounts [move] before.handle.raceEvent [] after.handle.raceEvent := by
  cases moves with
  | take next =>
    rw [nextEvent, if_pos lost] at next
    cases next
  | takeNone next =>
    rw [nextEvent, if_pos lost] at next
    cases next
    exact ⟨rfl, accounts_nothing rfl rfl _⟩
  | reply round =>
    rw [recvRound, if_pos lost] at round
    cases round
  | queue round =>
    rw [recvRound, if_pos lost] at round
    cases round
  | failRound round =>
    rw [recvRound, if_pos lost] at round
    cases after
    cases round
    exact ⟨lost, accounts_nothing rfl rfl _⟩
  | send cmd sent connected =>
    rw [lost] at connected
    cases connected

/-- What one move receives of the stream. -/
theorem one_move {before after : Channel} {move : Move} (moves : Moves fresh createJson before move after)
    (roomy : before.Roomy) :
    ∃ messages rest, Decodes nextMessage before.stream (messages.map .ok) rest ∧
      (after.handle.connected = true → after.Roomy ∧ after.stream = rest) ∧
      Accounts [move] before.handle.raceEvent messages after.handle.raceEvent := by
  cases moves with
  | @take event handle socket next =>
    obtain ⟨packetBuf, raceEvent, -⟩ := parseEvent_keeps createJson event handle
    obtain ⟨-, -, ⟨-, queued, samePacketBuf, rfl⟩ | ⟨nothing, queue, roomyAfter, isNext⟩⟩ :=
      nextEvent_some roomy next
    · refine ⟨[], before.stream, .done _, fun _ => ⟨?_, ?_⟩, ?_⟩
      · rw [Channel.Roomy, packetBuf, samePacketBuf]
        exact roomy
      · rw [Channel.stream, EslReceiving.stream, packetBuf, samePacketBuf]
        rfl
      · rw [queued, raceEvent]
        exact ⟨by rw [List.append_nil]; exact .refl _, .refl _, by rw [List.append_nil]; exact .refl _,
          fun _ member => absurd member List.not_mem_nil⟩
    · refine ⟨[event], stream handle socket, .single isNext, fun _ => ⟨?_, ?_⟩, ?_⟩
      · rw [Channel.Roomy, packetBuf]
        exact roomyAfter
      · rw [Channel.stream, EslReceiving.stream, packetBuf, EslReceiving.stream]
      · rw [raceEvent, queue, nothing rfl]
        exact ⟨.refl _, List.nil_sublist _, .refl _, fun _ member => absurd member List.not_mem_nil⟩
  | @takeNone handle socket next =>
    refine ⟨[], before.stream, .done _, fun connected => absurd connected Bool.false_ne_true, ?_⟩
    rw [nextEvent_none roomy next]
    exact accounts_nothing rfl rfl _
  | @reply _ event round replied =>
    obtain ⟨same, -⟩ | ⟨event', roomyAfter, isNext, either⟩ := recvRound_cases roomy round
    · cases same
    · obtain ⟨same, -⟩ | ⟨-, notRace, queue, saved⟩ := either
      · cases same
      · rw [replied] at saved
        cases saved
        refine ⟨[event], after.stream, .single isNext, fun _ => ⟨roomyAfter, rfl⟩, ?_⟩
        rw [queue]
        refine ⟨List.sublist_append_left _ _, .refl _, List.perm_append_comm, fun reply member => ?_⟩
        cases List.mem_singleton.mp member
        exact notRace
  | @queue _ event round queued =>
    obtain ⟨same, -⟩ | ⟨event', roomyAfter, isNext, either⟩ := recvRound_cases roomy round
    · cases same
    · obtain ⟨-, -, queue⟩ | ⟨same, -⟩ := either
      · rw [queue, List.getLast?_concat] at queued
        cases queued
        refine ⟨[event], after.stream, .single isNext, fun _ => ⟨roomyAfter, rfl⟩, ?_⟩
        rw [queue]
        exact ⟨.refl _, List.nil_sublist _, .refl _, fun _ member => absurd member List.not_mem_nil⟩
      · cases same
  | failRound round =>
    obtain ⟨-, lost, queue⟩ | ⟨event', -, -, ⟨same, -⟩ | ⟨same, -⟩⟩ := recvRound_cases roomy round
    · refine ⟨[], before.stream, .done _, fun connected => ?_, ?_⟩
      · rw [lost] at connected
        cases connected
      · rw [queue]
        exact accounts_nothing rfl rfl _
    · cases same
    · cases same
  | send cmd sent =>
    obtain ⟨packetBuf, raceEvent⟩ :=
      eslSend_keeps cmd sent { before.handle with lastSrEvent := none, lastSrReply := [] }
    refine ⟨[], before.stream, .done _, fun _ => ⟨?_, ?_⟩, ?_⟩
    · rw [Channel.Roomy, packetBuf]
      exact roomy
    · rw [Channel.stream, EslReceiving.stream, packetBuf]
      rfl
    · rw [raceEvent]
      exact accounts_nothing rfl rfl _

/-! ## Runs -/

/-- A run on a lost connection receives nothing. -/
theorem lost_run {before after : Channel} {moves : List Move} (run : Run (Moves fresh createJson) before moves after)
    (lost : before.handle.connected = false) :
    after.handle.connected = false ∧ Accounts moves before.handle.raceEvent [] after.handle.raceEvent := by
  induction run with
  | done channel =>
    exact ⟨lost, by rw [List.append_nil]; exact .refl _, .refl _, by rw [List.append_nil]; exact .refl _,
      fun _ member => nomatch member⟩
  | next first _ inductionHypothesis =>
    obtain ⟨still, one⟩ := lost_move first lost
    obtain ⟨last, others⟩ := inductionHypothesis still
    exact ⟨last, one.trans others⟩

/-- Of the messages of a connection each is received once or is queued, whatever the order of the moves
of its threads: events and replies in the order they came, and an event never as a reply. -/
theorem received_once {before after : Channel} {moves : List Move}
    (run : Run (Moves fresh createJson) before moves after) (roomy : before.Roomy) :
    ∃ messages rest, Decodes nextMessage before.stream (messages.map .ok) rest ∧
      (after.handle.connected = true → after.Roomy ∧ after.stream = rest) ∧
      Accounts moves before.handle.raceEvent messages after.handle.raceEvent := by
  induction run with
  | done channel =>
    exact ⟨[], channel.stream, .done _, fun _ => ⟨roomy, rfl⟩, by rw [List.append_nil]; exact .refl _, .refl _,
      by rw [List.append_nil]; exact .refl _, fun _ member => nomatch member⟩
  | @next before middle after move moves first rest inductionHypothesis =>
    obtain ⟨messages, behind, decodes, kept, accounts⟩ := one_move first roomy
    cases connected : middle.handle.connected with
    | true =>
      obtain ⟨roomyMiddle, same⟩ := kept connected
      obtain ⟨messages', behind', decodes', kept', accounts'⟩ := inductionHypothesis roomyMiddle
      rw [same] at decodes'
      refine ⟨messages ++ messages', behind', ?_, kept', accounts.trans accounts'⟩
      rw [List.map_append]
      exact decodes.trans decodes'
    | false =>
      obtain ⟨last, accounts'⟩ := lost_run rest connected
      refine ⟨messages ++ [], behind, ?_, fun connected => ?_, accounts.trans accounts'⟩
      · rw [List.append_nil]
        exact decodes
      · rw [last] at connected
        cases connected

/-- An event comes while a reply is waited for; it is queued, and received later. -/
theorem received_once_queued :
    ∃ (event : EslEvent) (after : Channel), isRaceEvent event = true ∧ ∃ messages rest,
      Decodes nextMessage (Channel.stream ⟨shortHandle, inPieces⟩) (messages.map .ok) rest ∧
        (after.handle.connected = true → after.Roomy ∧ after.stream = rest) ∧
        Accounts [.queue event, .take event] [] messages after.handle.raceEvent := by
  obtain ⟨event, -, race, -⟩ := short_next
  obtain ⟨middle, left, -, -, connected, -, queues, -⟩ :=
    recvRound_next (fun _ => 'x') rfl short_roomy event
  obtain ⟨round, queue⟩ := queues race
  have taken : nextEvent (fun _ => 'x') true middle left = .ok (some (parsePacket "content-type:x\n\n".toList),
      { middle with lastIevent := none, raceEvent := [] }, left) := by
    rw [nextEvent, if_neg (by rw [connected]; decide)]
    simp only [queue]
    rfl
  have queued : middle.raceEvent.getLast? = some (parsePacket "content-type:x\n\n".toList) := by
    rw [queue]
    rfl
  have first : Moves (fun _ => 'x') (fun _ => none) ⟨shortHandle, inPieces⟩ _ ⟨middle, left⟩ := .queue round queued
  exact ⟨_, _, race, received_once (.next first (.next (.take taken) (.done _))) short_roomy⟩

/-! ## Cuts and interleavings -/

/-- Among the events, those that are no replies were received in the order they came. -/
theorem Accounts.races {moves : List Move} {before messages after : List EslEvent}
    (accounts : Accounts moves before messages after) :
    (taken moves ++ after).filter isRaceEvent = (before ++ messages).filter isRaceEvent := by
  have noReplies : (replied moves).filter isRaceEvent = [] :=
    List.filter_eq_nil_iff.mpr fun event member race => by
      rw [accounts.apart event member] at race
      cases race
  refine (accounts.events.filter isRaceEvent).eq_of_length ?_
  have once := (accounts.once.filter isRaceEvent).length_eq
  rw [List.filter_append, List.filter_append, noReplies, List.append_nil, ← List.filter_append] at once
  exact once

/-- What events a connection delivers depends neither on the cuts of its stream nor on the commands of
other threads: of two runs over the same stream, one delivers the first events of the other, and runs that
leave no message deliver the same. -/
theorem same_events {one one' other other' : Channel} {moves moves' : List Move} {createJson' : Text → Option EslEvent}
    {fresh' : Nat → Char} (run : Run (Moves fresh createJson) one moves one')
    (run' : Run (Moves fresh' createJson') other moves' other') (roomy : one.Roomy) (roomy' : other.Roomy)
    (sameStream : one.stream = other.stream) (sameQueue : one.handle.raceEvent = other.handle.raceEvent) :
    let delivered := (taken moves ++ one'.handle.raceEvent).filter isRaceEvent
    let delivered' := (taken moves' ++ other'.handle.raceEvent).filter isRaceEvent
    (delivered <+: delivered' ∨ delivered' <+: delivered) ∧
      (one'.handle.connected = true → nextMessage one'.stream = none →
        other'.handle.connected = true → nextMessage other'.stream = none → delivered = delivered') := by
  obtain ⟨messages, rest, decodes, kept, accounts⟩ := received_once run roomy
  obtain ⟨messages', rest', decodes', kept', accounts'⟩ := received_once run' roomy'
  rw [← sameStream] at decodes'
  have injective : Function.Injective (@Except.ok EslFault EslEvent) := fun _ _ same => Except.ok.inj same
  have shorter : ∀ {some more : List EslEvent}, some.map (@Except.ok EslFault EslEvent) <+: more.map .ok →
      (one.handle.raceEvent ++ some).filter isRaceEvent <+: (one.handle.raceEvent ++ more).filter isRaceEvent := by
    intro some more front
    have front := (List.prefix_map_iff_of_injective injective).mp front
    exact ((List.prefix_append_right_inj _).mpr front).filter _
  dsimp only
  rw [accounts.races, accounts'.races, ← sameQueue]
  refine ⟨(decodes.comparable decodes').imp shorter shorter, fun connected ended connected' ended' => ?_⟩
  rw [(kept connected).2] at ended
  rw [(kept' connected').2] at ended'
  exact (shorter (decodes'.longest decodes ended')).eq_of_length_le (shorter (decodes.longest decodes' ended)).length_le


/-- The same bytes in one read, and the event received at once. -/
theorem same_events_short :
    ∃ (moves moves' : List Move) (one' other' : Channel), moves ≠ moves' ∧
      (let delivered := (taken moves ++ one'.handle.raceEvent).filter isRaceEvent
       let delivered' := (taken moves' ++ other'.handle.raceEvent).filter isRaceEvent
       (delivered <+: delivered' ∨ delivered' <+: delivered) ∧
         (one'.handle.connected = true → nextMessage one'.stream = none →
           other'.handle.connected = true → nextMessage other'.stream = none → delivered = delivered')) := by
  obtain ⟨event, -, race, -⟩ := short_next
  obtain ⟨middle, left, -, -, -, -, queues, -⟩ := recvRound_next (fun _ => 'x') rfl short_roomy event
  obtain ⟨round, queue⟩ := queues race
  have queued : middle.raceEvent.getLast? = some (parsePacket "content-type:x\n\n".toList) := by
    rw [queue]
    rfl
  obtain ⟨text, whole, sameStream⟩ : ∃ text, EslReceiving.Roomy shortHandle.packetBuf [.data text] ∧
      stream shortHandle inPieces = stream shortHandle [.data text] :=
    ⟨stream shortHandle inPieces, roomy_create 16 (by decide), by decide⟩
  rw [sameStream] at event
  have receives := receiveMessage_eq (fun _ => 'x') shortHandle whole
  rw [event] at receives
  obtain ⟨packetBuf, left', received, -⟩ := receives
  have taken : nextEvent (fun _ => 'x') true shortHandle [.data text] =
      .ok (some (parsePacket "content-type:x\n\n".toList), { shortHandle with packetBuf }, left') := by
    rw [nextEvent, if_neg (by decide)]
    exact received
  have run : Run (Moves (fun _ => 'x') fun _ => none) ⟨shortHandle, inPieces⟩ _ ⟨middle, left⟩ :=
    .single (.queue round queued)
  have run' : Run (Moves (fun _ => 'x') fun _ => none) ⟨shortHandle, [.data text]⟩ _ _ := .single (.take taken)
  have same := same_events run run' short_roomy whole sameStream rfl
  exact ⟨_, _, _, _, by nofun, same⟩

end CallCenter.Verified.EslChannel
