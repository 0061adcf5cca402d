import CallCenter.Model.InboundLoop
import CallCenter.Verified.EslChannel
import CallCenter.Verified.EslEvents

/-!
# From the bytes of the connection to the running system

Each plain event in the stream of the event thread's connection is given to `process_event` once, in the
order of the stream, whatever commands are sent in between, as long as the packet buffer has room for all
that comes.  A wait for a reply between `esl_recv_event` and the look at `last_ievent` makes the thread miss
an event, and one while `process_event` reads its event frees it.
-/

namespace CallCenter.Verified.InboundLoop

open CallCenter.Foundation (Text Run Guarded Steps)
open CallCenter.Foundation.Framing
open CallCenter.Model
open CallCenter.Verified.EslReceiving CallCenter.Verified.EslChannel CallCenter.Verified.EslEvents

/-! ## Events as `process_event` reads them -/

theorem sameName_ofList (first : Text) (second : String) :
    sameName (String.ofList first) second = strcaseeq first second.toList := by
  rw [sameName, strcaseeq, String.toList_ofList]

/-- `process_event` finds what `esl_event_get_header` finds. -/
theorem eslEventGetHeader_toEvent {event : EslEvent} (hashed : Hashed event) {name : String} (noBody : name ≠ "_body") :
    eslEventGetHeader event.toEvent name = (event.getHeader name.toList).map String.ofList := by
  have notBody : name.toList ≠ "_body".toList := fun same => noBody (String.toList_injective same)
  rw [getHeader_eq hashed, byName, if_neg notBody, eslEventGetHeader, EslEvent.toEvent, List.find?_map]
  have named : ((fun header : String × String => sameName header.1 name) ∘ fun hp : EslHeader =>
      (String.ofList hp.name, String.ofList hp.value)) = fun hp => strcaseeq hp.name name.toList := by
    funext hp
    exact sameName_ofList hp.name name
  rw [named, header]
  cases event.headers.find? fun hp => strcaseeq hp.name name.toList <;> rfl

/-- The event in the body of a message. -/
def innerEvent (createJson : Text → Option EslEvent) (event : EslEvent) : Option EslEvent :=
  match event.body with
  | none => none
  | some body =>
    let hval := event.getHeader "content-type".toList
    if safeStrcaseeq hval "text/event-plain" then some (parsePlain body)
    else if safeStrcaseeq hval "text/event-json" then createJson (Text.cString body)
    else none

theorem strcaseeq_apart {text : Text} {one : String} (isOne : strcaseeq text one.toList = true) (other : String)
    (apart : strcaseeq one.toList other.toList = false) : strcaseeq text other.toList = false := by
  refine Bool.eq_false_iff.mpr fun isOther => ?_
  rw [strcaseeq_trans (strcaseeq_symm isOne) isOther] at apart
  cases apart

/-- A message with an event is no reply. -/
theorem isRaceEvent_of_inner {createJson : Text → Option EslEvent} {event inner : EslEvent}
    (isInner : innerEvent createJson event = some inner) : isRaceEvent event = true := by
  rw [innerEvent] at isInner
  rw [isRaceEvent]
  cases body : event.body with
  | none =>
    rw [body] at isInner
    cases isInner
  | some text =>
    rw [body] at isInner
    cases contentType : event.getHeader "content-type".toList with
    | none =>
      rw [contentType] at isInner
      cases isInner
    | some ct =>
      rw [contentType] at isInner
      dsimp only at isInner ⊢
      by_cases isPlain : safeStrcaseeq (some ct) "text/event-plain" = true
      · rw [strcaseeq_apart isPlain "api/response" (by decide), strcaseeq_apart isPlain "command/reply" (by decide)]
        rfl
      · by_cases isJson : safeStrcaseeq (some ct) "text/event-json" = true
        · rw [strcaseeq_apart isJson "api/response" (by decide), strcaseeq_apart isJson "command/reply" (by decide)]
          rfl
        · rw [if_neg isPlain, if_neg isJson] at isInner
          cases isInner

theorem filterMap_races (createJson : Text → Option EslEvent) (events : List EslEvent) :
    (events.filter isRaceEvent).filterMap (innerEvent createJson) = events.filterMap (innerEvent createJson) := by
  rw [List.filterMap_filter]
  refine List.filterMap_congr fun event _ => ?_
  split
  · rfl
  · rename_i notRace
    refine (Option.eq_none_iff_forall_ne_some.mpr fun inner isInner => ?_).symm
    exact notRace (isRaceEvent_of_inner isInner)

/-- A notice of a disconnect brings no event. -/
theorem innerEvent_of_notice (createJson : Text → Option EslEvent) {event : EslEvent}
    (notice : safeStrcaseeq (event.getHeader "content-type".toList) "text/disconnect-notice" = true) :
    innerEvent createJson event = none := by
  rw [innerEvent]
  cases contentType : event.getHeader "content-type".toList with
  | none =>
    rw [contentType] at notice
    cases notice
  | some ct =>
    rw [contentType] at notice
    have notPlain : safeStrcaseeq (some ct) "text/event-plain" = false := strcaseeq_apart notice _ (by decide)
    have notJson : safeStrcaseeq (some ct) "text/event-json" = false := strcaseeq_apart notice _ (by decide)
    dsimp only
    rw [notPlain, notJson]
    cases event.body <;> rfl

/-- What `parse_event` leaves in `last_ievent`; where it fails, there is no event. -/
theorem parseEvent_lastIevent (createJson : Text → Option EslEvent) (event : EslEvent) {handle : EslHandle}
    (none : handle.lastIevent = none) :
    (parseEvent createJson event handle).2.lastIevent = innerEvent createJson event ∧
      ((parseEvent createJson event handle).1 = .fail → innerEvent createJson event = .none) := by
  have success : EslStatus.success ≠ .fail := by decide
  rw [parseEvent]
  dsimp only
  split
  · rename_i notice
    rw [innerEvent_of_notice createJson notice.1]
    exact ⟨none, fun _ => rfl⟩
  · rw [innerEvent]
    cases body : event.body with
    | none => exact ⟨none, fun _ => rfl⟩
    | some text =>
      dsimp only
      split
      · exact ⟨rfl, fun fails => absurd fails success⟩
      · split
        · exact ⟨rfl, fun fails => absurd fails success⟩
        · exact ⟨none, fun _ => rfl⟩

/-! ## One step -/

abbrev channel (inbound : Inbound) : Channel := ⟨inbound.handle, inbound.socket⟩

/-- The event that was received and is not processed yet. -/
def held (inbound : Inbound) : List EslEvent :=
  match inbound.thread with
  | .received => inbound.handle.lastIevent.toList
  | .reading event => [event]
  | _ => []

/-- The events given to `process_event`, in order. -/
def processed (moves : List InboundMove) : List EslEvent :=
  moves.filterMap fun move => match move with | .process event _ => some event | _ => none

/-- The steps of the system. -/
def actions (moves : List InboundMove) : List Action :=
  moves.filterMap fun move =>
    match move with
    | .process event ambient => some (.event event.toEvent ambient)
    | .other action => some action
    | _ => none

variable {lib : Libraries} {fresh : Nat → Char} {createJson : Text → Option EslEvent}

theorem nextEvent_lastIevent {handle after : EslHandle} {socket left : List Recv} {event : EslEvent} {checkQ : Bool}
    (next : nextEvent fresh checkQ handle socket = .ok (some event, after, left)) : after.lastIevent = none := by
  rw [nextEvent] at next
  split at next
  · cases next
  · dsimp only at next
    split at next
    · cases next
      rfl
    · obtain ⟨packetBuf, rfl⟩ := receiveMessage_keeps next
      rfl

/-- `esl_recv_event` leaves the event of the message it received in `last_ievent`. -/
theorem takes_of_eslRecvEvent {handle after : EslHandle} {socket left : List Recv} {status : EslStatus}
    (returned : eslRecvEvent fresh createJson true handle socket = .ok (status, after, left)) :
    ∃ move, Moves fresh createJson ⟨handle, socket⟩ move ⟨after, left⟩ ∧
      (taken [move]).filterMap (innerEvent createJson) = if status = .success then after.lastIevent.toList else [] := by
  rw [eslRecvEvent] at returned
  cases next : nextEvent fresh true handle socket with
  | error stop =>
    rw [next] at returned
    cases returned
  | ok result =>
    obtain ⟨message, reached, socket'⟩ := result
    rw [next] at returned
    cases message with
    | none =>
      cases returned
      exact ⟨.fail, .takeNone next, rfl⟩
    | some event =>
      obtain ⟨last, failed⟩ := parseEvent_lastIevent createJson event (nextEvent_lastIevent next)
      have takes : Moves fresh createJson ⟨handle, socket⟩ _ _ := .take next
      dsimp only [bind, Except.bind, pure, Except.pure] at returned
      generalize parseEvent createJson event reached = parsed at returned last failed takes
      cases returned
      refine ⟨.take event, takes, ?_⟩
      rw [last]
      show [event].filterMap (innerEvent createJson) = _
      cases succeeded : parsed.1 with
      | success =>
        rw [if_pos rfl]
        cases inner : innerEvent createJson event <;> simp [inner]
      | fail =>
        have noSuccess : EslStatus.fail ≠ .success := by decide
        rw [if_neg noSuccess]
        simp [failed succeeded]

/-- A round takes no event, and leaves none in `last_ievent`. -/
theorem moves_of_recvRound (createJson : Text → Option EslEvent) {handle after : EslHandle} {socket left : List Recv}
    {status : Option EslStatus}
    (round : recvRound fresh handle socket = .ok (status, after, left)) :
    ∃ move, Moves fresh createJson ⟨handle, socket⟩ move ⟨after, left⟩ ∧ taken [move] = [] ∧
      (after.lastIevent = handle.lastIevent ∨ after.lastIevent = none) := by
  cases connected : handle.connected with
  | false =>
    have round' := round
    rw [recvRound, if_pos connected] at round'
    cases round'
    exact ⟨.fail, .failRound round, rfl, .inl rfl⟩
  | true =>
    have round' := round
    rw [recvRound_eq connected] at round'
    cases received : receiveMessage fresh (cleared handle) socket with
    | error stop =>
      rw [received] at round'
      cases round'
    | ok result =>
      obtain ⟨message, reached, socket'⟩ := result
      obtain ⟨packetBuf, rfl⟩ := receiveMessage_keeps received
      rw [received] at round'
      cases message with
      | none =>
        cases round'
        exact ⟨.fail, .failRound round, rfl, .inr rfl⟩
      | some event =>
        simp only [Except.map, roundWith] at round'
        split at round'
        · cases round'
          exact ⟨.queue event, .queue round (List.getLast?_concat), rfl, .inr rfl⟩
        · cases round'
          exact ⟨.reply event, .reply round rfl, rfl, .inr rfl⟩

/-- A reply is waited for while an event was received and the thread has not looked at it yet. -/
def Overtakes (before : Inbound) (move : InboundMove) : Prop :=
  before.thread = .received ∧ ∃ status, move = .round status

/-- A reply is waited for while `process_event` reads its event. -/
def Frees (before : Inbound) (move : InboundMove) : Prop :=
  (∃ event, before.thread = .reading event) ∧ ∃ status, move = .round status

/-- The event `process_event` reads is there, and no event was read behind its end. -/
structure Intact (inbound : Inbound) : Prop where
  event : ∀ {event}, inbound.thread = .reading event → inbound.handle.lastIevent = some event
  sound : inbound.thread ≠ .faulted

theorem eslSend_lastIevent (cmd : Text) (sent : Bool) (handle : EslHandle) :
    (eslSend cmd sent handle).2.lastIevent = handle.lastIevent := by
  rw [eslSend]
  split
  · rfl
  · split <;> rfl

/-- Of the event that is held and those the moves take, a step processes and keeps none twice or out of order,
and all of them where no reply overtakes one. -/
structure Keeps (createJson : Text → Option EslEvent) (before after : Inbound) (move : InboundMove)
    (moves : List Move) : Prop where
  sublist : (processed [move] ++ held after).Sublist (held before ++ (taken moves).filterMap (innerEvent createJson))
  all : ¬ Overtakes before move → Intact before →
    processed [move] ++ held after = held before ++ (taken moves).filterMap (innerEvent createJson)

theorem keeps_of_all {before after : Inbound} {move : InboundMove} {moves : List Move}
    (all : processed [move] ++ held after = held before ++ (taken moves).filterMap (innerEvent createJson)) :
    Keeps createJson before after move moves :=
  ⟨by rw [all], fun _ _ => all⟩

/-- A step that takes no message keeps the event or gives it to the next stage. -/
theorem keeps_without {before after : Inbound} {move : InboundMove}
    (same : processed [move] ++ held after = held before) : Keeps createJson before after move [] :=
  keeps_of_all (same.trans (List.append_nil _).symm)

/-- A round may put a reply in the place of the event that was received. -/
theorem keeps_round {before : Inbound} {move : Move} {status : Option EslStatus} {handle : EslHandle}
    {socket : List Recv} (noEvent : taken [move] = [])
    (ievent : handle.lastIevent = before.handle.lastIevent ∨ handle.lastIevent = none) :
    Keeps createJson before { before with handle, socket } (.round status) [move] := by
  have left : processed [.round status] ++ held { before with handle, socket } =
      held { before with handle, socket } := List.nil_append _
  have right : held before ++ (taken [move]).filterMap (innerEvent createJson) = held before := by
    rw [noEvent]
    exact List.append_nil _
  constructor
  case sublist =>
    rw [left, right, held, held]
    cases before.thread with
    | received =>
      rcases ievent with same | gone
      · rw [same]
      · rw [gone]
        exact List.nil_sublist _
    | receiving | reading | commanding | ended | faulted => exact .refl _
  case all =>
    intro noRound _
    rw [left, right, held, held]
    cases thread : before.thread with
    | received => exact absurd ⟨thread, status, rfl⟩ noRound
    | receiving | reading | commanding | ended | faulted => rfl

/-- What one step does with the event that was received: it stays until it was processed, but for a
reply. -/
theorem held_step {before after : Inbound} {move : InboundMove}
    (steps : InboundSteps lib fresh createJson before move after) :
    ∃ moves, Run (Moves fresh createJson) (channel before) moves (channel after) ∧
      Keeps createJson before after move moves := by
  cases steps with
  | @receive status handle socket thread returned =>
    obtain ⟨move, moves, inner⟩ := takes_of_eslRecvEvent returned
    refine ⟨[move], .single moves, keeps_of_all ?_⟩
    rw [inner, held, held, thread]
    cases status <;> rfl
  | look thread ievent =>
    refine ⟨[], .done _, keeps_without ?_⟩
    simp only [held, thread, ievent]
    rfl
  | skip thread ievent =>
    refine ⟨[], .done _, keeps_without ?_⟩
    simp only [held, thread, ievent]
    rfl
  | process thread =>
    refine ⟨[], .done _, keeps_without ?_⟩
    simp only [held, thread]
    rfl
  | readFreed thread ievent =>
    refine ⟨[], .done _, List.nil_sublist _, fun _ intact => ?_⟩
    rw [intact.event thread] at ievent
    cases ievent
  | finish thread =>
    refine ⟨[], .done _, keeps_without ?_⟩
    simp only [held, thread]
    rfl
  | send cmd sent connected =>
    refine ⟨_, .single (.send cmd sent connected), keeps_of_all ?_⟩
    rw [held, held, eslSend_lastIevent]
    exact (List.append_nil _).symm
  | @round status handle socket returned =>
    obtain ⟨move, moves, noEvent, ievent⟩ := moves_of_recvRound createJson returned
    exact ⟨[move], .single moves, keeps_round noEvent ievent⟩
  | other _ _ => exact ⟨[], .done _, keeps_without rfl⟩

/-- The event `process_event` reads stays where no reply is waited for in the meantime. -/
theorem intact_step {before after : Inbound} {move : InboundMove}
    (steps : InboundSteps lib fresh createJson before move after) (keeps : ¬ Frees before move)
    (intact : Intact before) : Intact after := by
  cases steps with
  | @receive status _ _ _ _ =>
    cases status
    · exact ⟨nofun, nofun⟩
    · exact ⟨nofun, nofun⟩
  | look thread ievent =>
    refine ⟨fun reads => ?_, nofun⟩
    cases reads
    exact ievent
  | skip | process | finish => exact ⟨nofun, nofun⟩
  | readFreed thread ievent =>
    rw [intact.event thread] at ievent
    cases ievent
  | send cmd sent _ =>
    refine ⟨fun reads => ?_, intact.sound⟩
    dsimp only at reads ⊢
    rw [eslSend_lastIevent]
    exact intact.event reads
  | @round status _ _ _ =>
    refine ⟨fun {event} reads => ?_, intact.sound⟩
    exact absurd ⟨⟨event, reads⟩, status, rfl⟩ keeps
  | other _ _ => exact ⟨intact.event, intact.sound⟩

/-- The system takes the steps of the event thread and of the others. -/
theorem run_of_system {before after : Inbound} {moves : List InboundMove}
    (run : Run (InboundSteps lib fresh createJson) before moves after) :
    Run (Steps (System.step lib)) before.system (actions moves) after.system := by
  induction run with
  | done => exact .done _
  | @next before middle after move moves first _ inductionHypothesis =>
    cases first with
    | process thread ievent stepped => exact .next stepped inductionHypothesis
    | other other stepped => exact .next stepped inductionHypothesis
    | receive | look | skip | readFreed | finish | send | round => exact inductionHypothesis

theorem processed_append (earlier later : List InboundMove) :
    processed (earlier ++ later) = processed earlier ++ processed later :=
  List.filterMap_append

/-- What a run does with the events of the messages it takes. -/
theorem run_accounts {before after : Inbound} {moves : List InboundMove}
    (run : Run (InboundSteps lib fresh createJson) before moves after) :
    ∃ channelMoves, Run (Moves fresh createJson) (channel before) channelMoves (channel after) ∧
      (processed moves ++ held after).Sublist
        (held before ++ (taken channelMoves).filterMap (innerEvent createJson)) := by
  induction run with
  | done inbound =>
    refine ⟨[], .done _, ?_⟩
    rw [show taken [] = [] from rfl, List.filterMap_nil, List.append_nil]
    exact .refl _
  | @next before middle after move moves first _ inductionHypothesis =>
    obtain ⟨channelMoves, one, kept⟩ := held_step first
    obtain ⟨channelMoves', others, sublist'⟩ := inductionHypothesis
    refine ⟨channelMoves ++ channelMoves', one.append others, ?_⟩
    rw [taken_append, List.filterMap_append, ← List.append_assoc, ← List.singleton_append, processed_append,
      List.append_assoc]
    have more := sublist'.append_left (processed [move])
    rw [← List.append_assoc (processed [move]) (held middle)] at more
    exact more.trans (kept.sublist.append_right _)

/-- Where no reply overtakes an event or frees it, every event of the messages is processed or held. -/
theorem run_accounts_all {before after : Inbound} {moves : List InboundMove} (intact : Intact before)
    (run : Run (Guarded (fun inbound move => ¬ Overtakes inbound move ∧ ¬ Frees inbound move)
      (InboundSteps lib fresh createJson)) before moves after) :
    ∃ channelMoves, Run (Moves fresh createJson) (channel before) channelMoves (channel after) ∧
      processed moves ++ held after = held before ++ (taken channelMoves).filterMap (innerEvent createJson) := by
  induction run with
  | done inbound =>
    refine ⟨[], .done _, ?_⟩
    rw [show taken [] = [] from rfl, List.filterMap_nil, List.append_nil]
    rfl
  | @next before middle after move moves first _ inductionHypothesis =>
    obtain ⟨⟨noReply, keeps⟩, steps⟩ := first
    obtain ⟨channelMoves, one, kept⟩ := held_step steps
    obtain ⟨channelMoves', others, same'⟩ := inductionHypothesis (intact_step steps keeps intact)
    refine ⟨channelMoves ++ channelMoves', one.append others, ?_⟩
    rw [taken_append, List.filterMap_append, ← List.append_assoc, ← kept.all noReply intact, ← List.singleton_append,
      processed_append, List.append_assoc, List.append_assoc, same']

/-- The events among the actions of the system. -/
def eventsOf (actions : List Action) : List Event :=
  actions.filterMap fun action => match action with | .event event _ => some event | _ => none

theorem eventsOf_actions {before after : Inbound} {moves : List InboundMove}
    (run : Run (InboundSteps lib fresh createJson) before moves after) :
    eventsOf (actions moves) = (processed moves).map EslEvent.toEvent := by
  induction run with
  | done => rfl
  | next first _ inductionHypothesis =>
    cases first with
    | process thread ievent stepped => exact congrArg _ inductionHypothesis
    | receive | look | skip | readFreed | finish | send | round => exact inductionHypothesis
    | other other stepped =>
      refine Eq.trans ?_ inductionHypothesis
      cases ‹Action› with
      | event => cases other
      | _ => rfl

/-- The connection as the loop starts with it. -/
structure Starts (inbound : Inbound) : Prop where
  thread : inbound.thread = .receiving
  queue : inbound.handle.raceEvent = []
  roomy : EslReceiving.Roomy inbound.handle.packetBuf inbound.socket

/-! ## The thread alone -/

theorem connected_of_success {event : EslEvent} {handle : EslHandle}
    (success : (parseEvent createJson event handle).1 = .success) :
    (parseEvent createJson event handle).2.connected = handle.connected := by
  rw [parseEvent] at success ⊢
  dsimp only at success ⊢
  split at success
  · cases success
  · rename_i noNotice
    rw [if_neg noNotice]
    split
    · rfl
    · split
      · rfl
      · split <;> rfl

theorem success_of_inner {status : EslStatus} {event inner : EslEvent}
    (failed : status = .fail → innerEvent createJson event = none) (isInner : innerEvent createJson event = some inner) :
    status = .success := by
  cases status with
  | success => rfl
  | fail =>
    rw [failed rfl] at isInner
    cases isInner

/-- A message with an event that has come is received, and its event is there for `process_event`. -/
theorem eslRecvEvent_inner {handle : EslHandle} {socket : List Recv} {event inner : EslEvent} {rest : Text}
    (connected : handle.connected = true) (queue : handle.raceEvent = [])
    (roomy : EslReceiving.Roomy handle.packetBuf socket)
    (isNext : nextMessage (stream handle socket) = some (.ok event, rest))
    (isInner : innerEvent createJson event = some inner) :
    ∃ after left, eslRecvEvent fresh createJson true handle socket = .ok (.success, after, left) ∧
      after.lastIevent = some inner ∧ after.connected = true ∧ after.raceEvent = [] ∧
      EslReceiving.Roomy after.packetBuf left ∧ stream after left = rest := by
  have receives := receiveMessage_eq fresh { handle with lastIevent := none } roomy
  rw [show stream { handle with lastIevent := none } socket = stream handle socket from rfl, isNext] at receives
  obtain ⟨packetBuf, left, received, roomyAfter, streamAfter, -⟩ := receives
  have next : nextEvent fresh true handle socket =
      .ok (some event, { handle with lastIevent := none, packetBuf }, left) := by
    rw [nextEvent_unqueued handle connected (fun _ => queue)]
    exact received
  obtain ⟨last, failed⟩ := parseEvent_lastIevent createJson event (nextEvent_lastIevent next)
  obtain ⟨samePacketBuf, sameQueue, -⟩ :=
    parseEvent_keeps createJson event { handle with lastIevent := none, packetBuf }
  have success := success_of_inner failed isInner
  refine ⟨(parseEvent createJson event { handle with lastIevent := none, packetBuf }).2, left, ?_, ?_, ?_, ?_, ?_, ?_⟩
  · rw [eslRecvEvent, next]
    exact congrArg (fun status => Except.ok (status, _, left)) success
  · rw [last, isInner]
  · rw [connected_of_success success]
    exact connected
  · rw [sameQueue]
    exact queue
  · rw [samePacketBuf]
    exact roomyAfter
  · rw [stream, samePacketBuf]
    exact streamAfter

/-- The runs in which no reply is waited for between the end of `esl_recv_event` and the last look of
`process_event` at its event. -/
abbrev Unhurried (lib : Libraries) (fresh : Nat → Char) (createJson : Text → Option EslEvent) :
    Inbound → InboundMove → Inbound → Prop :=
  Guarded (fun inbound move => ¬ Overtakes inbound move ∧ ¬ Frees inbound move) (InboundSteps lib fresh createJson)

theorem unhurried_of_noRound {before after : Inbound} {move : InboundMove} (noRound : ∀ status, move ≠ .round status)
    (steps : InboundSteps lib fresh createJson before move after) :
    Unhurried lib fresh createJson before move after :=
  ⟨⟨fun overtakes => overtakes.2.elim noRound, fun frees => frees.2.elim noRound⟩, steps⟩

/-- One event is received and processed so. -/
theorem run_one {before : Inbound} {message event : EslEvent} {rest : Text} {ambient : Ambient} {system : System}
    (starts : Starts before) (connected : before.handle.connected = true)
    (isNext : nextMessage (stream before.handle before.socket) = some (.ok message, rest))
    (isInner : innerEvent createJson message = some event)
    (stepped : before.system.step lib (.event event.toEvent ambient) = some system) :
    ∃ moves after, Run (Unhurried lib fresh createJson) before moves after ∧ processed moves = [event] ∧
      after.handle.connected = true ∧ stream after.handle after.socket = rest := by
  obtain ⟨handle, left, returned, ievent, still, -, -, behind⟩ :=
    eslRecvEvent_inner connected starts.queue starts.roomy isNext isInner
  refine ⟨[.receive .success, .look event, .process event ambient], ⟨handle, left, .commanding, system⟩, ?_, rfl, still,
    behind⟩
  refine .next (unhurried_of_noRound nofun (.receive starts.thread returned)) ?_
  refine .next (unhurried_of_noRound nofun (.look rfl ievent)) ?_
  exact .single (unhurried_of_noRound nofun (.process rfl ievent stepped))

/-! ## Runs -/

/-- The events in the messages a connection delivers, in the order of the stream. -/
theorem inner_of_run {before after : Inbound} {channelMoves : List Move} (starts : Starts before)
    (run : Run (Moves fresh createJson) (channel before) channelMoves (channel after)) :
    ∃ (messages : List EslEvent) (rest : Text),
      Decodes nextMessage (stream before.handle before.socket) (messages.map .ok) rest ∧
      (after.handle.connected = true → stream after.handle after.socket = rest) ∧
      (taken channelMoves).filterMap (innerEvent createJson) ++
        after.handle.raceEvent.filterMap (innerEvent createJson) = messages.filterMap (innerEvent createJson) := by
  obtain ⟨messages, rest, decodes, kept, accounts⟩ := received_once run starts.roomy
  have races := congrArg (List.filterMap (innerEvent createJson)) accounts.races
  rw [filterMap_races, filterMap_races, starts.queue, List.nil_append, List.filterMap_append] at races
  exact ⟨messages, rest, decodes, fun connected => (kept connected).2, races⟩

theorem intact_of_starts {inbound : Inbound} (starts : Starts inbound) : Intact inbound := by
  constructor
  · intro event reads
    rw [starts.thread] at reads
    cases reads
  · rw [starts.thread]
    nofun

theorem held_of_starts {inbound : Inbound} (starts : Starts inbound) : held inbound = [] := by
  rw [held, starts.thread]

/-- Where no reply is waited for between the end of `esl_recv_event` and the last look of `process_event` at
its event, `process_event` reads no event that was freed and is given every event of the stream once and in
order, but for those that still wait; the process takes the steps of the system on these events. -/
theorem processed_in_order {before after : Inbound} {moves : List InboundMove} (starts : Starts before)
    (run : Run (Unhurried lib fresh createJson) before moves after) :
    after.thread ≠ .faulted ∧
    ∃ (messages : List EslEvent) (rest : Text),
      Decodes nextMessage (stream before.handle before.socket) (messages.map .ok) rest ∧
      (after.handle.connected = true → stream after.handle after.socket = rest) ∧
      processed moves ++ held after ++ after.handle.raceEvent.filterMap (innerEvent createJson) =
        messages.filterMap (innerEvent createJson) ∧
      Run (Steps (System.step lib)) before.system (actions moves) after.system ∧
      eventsOf (actions moves) = (processed moves).map EslEvent.toEvent := by
  have intact := intact_of_starts starts
  obtain ⟨channelMoves, channelRun, same⟩ := run_accounts_all intact run
  obtain ⟨messages, rest, decodes, kept, inner⟩ := inner_of_run starts channelRun
  refine ⟨(run.invariant Intact (fun _ _ _ step => intact_step step.2 step.1.2) intact).sound, messages, rest, decodes,
    kept, ?_, run_of_system run.unguarded, eventsOf_actions run.unguarded⟩
  rw [same, held_of_starts starts, List.nil_append, inner]

/-- Also where replies are waited for before the thread looks at `last_ievent`, no event is processed twice
or out of order. -/
theorem processed_sublist {before after : Inbound} {moves : List InboundMove} (starts : Starts before)
    (run : Run (Guarded (fun inbound move => ¬ Frees inbound move) (InboundSteps lib fresh createJson)) before moves
      after) :
    after.thread ≠ .faulted ∧
    ∃ (messages : List EslEvent) (rest : Text),
      Decodes nextMessage (stream before.handle before.socket) (messages.map .ok) rest ∧
      (after.handle.connected = true → stream after.handle after.socket = rest) ∧
      (processed moves ++ held after ++ after.handle.raceEvent.filterMap (innerEvent createJson)).Sublist
        (messages.filterMap (innerEvent createJson)) ∧
      Run (Steps (System.step lib)) before.system (actions moves) after.system ∧
      eventsOf (actions moves) = (processed moves).map EslEvent.toEvent := by
  have sound := (run.invariant Intact (fun _ _ _ step => intact_step step.2 step.1) (intact_of_starts starts)).sound
  obtain ⟨channelMoves, channelRun, sublist⟩ := run_accounts run.unguarded
  obtain ⟨messages, rest, decodes, kept, inner⟩ := inner_of_run starts channelRun
  refine ⟨sound, messages, rest, decodes, kept, ?_, run_of_system run.unguarded, eventsOf_actions run.unguarded⟩
  rw [held_of_starts starts, List.nil_append] at sublist
  rw [← inner]
  exact sublist.append_right _

/-! ## A run on a short connection -/

/-- One event, in two reads of the socket. -/
def oneEvent : Inbound where
  handle := { connected := true, packetBuf := eslBufferCreate 16 64 0 }
  socket := [.data "content-type:text/event-plain\ncontent-length:5\n\na".toList, .data ":b\n\n".toList]
  system := {}

def noLibraries : Libraries where
  parse _ := none
  toStyledString _ := ""
  sqlite3Exec _ _ := none

theorem oneEvent_starts : Starts oneEvent := ⟨rfl, rfl, roomy_create 16 (by decide)⟩

/-- Its message. -/
def oneMessage : EslEvent :=
  { parsePacket "content-type:text/event-plain\ncontent-length:5\n\n".toList with body := some "a:b\n\n".toList }

theorem oneEvent_next :
    nextMessage (stream oneEvent.handle oneEvent.socket) = some (.ok oneMessage, []) ∧
      innerEvent (fun _ => none) oneMessage = some (parsePlain "a:b\n\n".toList) ∧
      (parsePlain "a:b\n\n".toList).toEvent.eventId = .other := by
  decide +kernel

theorem oneEvent_stepped : oneEvent.system.step noLibraries
    (.event (parsePlain "a:b\n\n".toList).toEvent ⟨0, "", "", fun _ => 0⟩) = some oneEvent.system := by
  simp only [System.step, ManagerDN.processEvent, oneEvent_next.2.2, System.recordEvent]
  rfl

theorem oneEvent_run :
    ∃ (moves : List InboundMove) (after : Inbound),
      Run (Unhurried noLibraries (fun _ => 'x') fun _ => none) oneEvent moves after ∧
        processed moves = [parsePlain "a:b\n\n".toList] := by
  obtain ⟨isNext, isInner, isOther⟩ := oneEvent_next
  obtain ⟨moves, after, run, one, -⟩ := run_one oneEvent_starts rfl isNext isInner oneEvent_stepped
  exact ⟨moves, after, run, one⟩

theorem processed_in_order_one :
    ∃ (moves : List InboundMove) (after : Inbound), processed moves ≠ [] ∧ after.thread ≠ .faulted ∧
      ∃ (messages : List EslEvent) (rest : Text),
        Decodes nextMessage (stream oneEvent.handle oneEvent.socket) (messages.map .ok) rest ∧
        (after.handle.connected = true → stream after.handle after.socket = rest) ∧
        processed moves ++ held after ++ after.handle.raceEvent.filterMap (innerEvent fun _ => none) =
          messages.filterMap (innerEvent fun _ => none) ∧
        Run (Steps (System.step noLibraries)) oneEvent.system (actions moves) after.system ∧
        eventsOf (actions moves) = (processed moves).map EslEvent.toEvent := by
  obtain ⟨moves, after, run, one⟩ := oneEvent_run
  exact ⟨moves, after, by rw [one]; nofun, processed_in_order oneEvent_starts run⟩

theorem processed_sublist_one :
    ∃ (moves : List InboundMove) (after : Inbound), processed moves ≠ [] ∧ after.thread ≠ .faulted ∧
      ∃ (messages : List EslEvent) (rest : Text),
        Decodes nextMessage (stream oneEvent.handle oneEvent.socket) (messages.map .ok) rest ∧
        (after.handle.connected = true → stream after.handle after.socket = rest) ∧
        (processed moves ++ held after ++ after.handle.raceEvent.filterMap (innerEvent fun _ => none)).Sublist
          (messages.filterMap (innerEvent fun _ => none)) ∧
        Run (Steps (System.step noLibraries)) oneEvent.system (actions moves) after.system ∧
        eventsOf (actions moves) = (processed moves).map EslEvent.toEvent := by
  obtain ⟨moves, after, run, one⟩ := oneEvent_run
  have allowed : Run (Guarded (fun inbound move => ¬ Frees inbound move)
      (InboundSteps noLibraries (fun _ => 'x') fun _ => none)) oneEvent moves after :=
    run.mono fun _ _ _ step => ⟨step.1.2, step.2⟩
  exact ⟨moves, after, by rw [one]; nofun, processed_sublist oneEvent_starts allowed⟩

end CallCenter.Verified.InboundLoop
