import CallCenter.Model.EslEvent
import CallCenter.Model.Event

/-!
# The connection to FreeSWITCH

`esl_handle_t` and the functions of `esl.c` that go through it: receiving, and sending a command for its
reply.  What the socket does is a list: each entry is what one wait on it and one read of it deliver.
A call that needs more than the list holds is still waiting.
-/

namespace CallCenter.Model

open CallCenter.Foundation (Text)
open CallCenter.Foundation.Text (cString)
open CallCenter.Foundation.Numerals (atol)

/-- `esl_status_t`, as far as these functions return it. -/
inductive EslStatus where
  | success
  | fail
  deriving DecidableEq, Repr

/-- What `handle_recv` returns: bytes, 0, or less than 0. -/
inductive Recv where
  | data (bytes : Text)
  | again
  | failed
  deriving DecidableEq, Repr

/-- Why a call does not return. -/
inductive EslStop where
  | fault (fault : EslFault)
  | waiting
  deriving DecidableEq, Repr

def orFault {α : Type} : Except EslFault α → Except EslStop α
  | .ok value => .ok value
  | .error fault => .error (.fault fault)

/-- `BUF_CHUNK` and `BUF_START`. -/
def bufChunk : Nat := 65536 * 50

def bufStart : Nat := 65536 * 100

/-- `sizeof(handle->socket_buf)`. -/
def socketBufSize : Nat := 65536

/-- `esl_handle_t`.  Its `sock` is invalid only where `connected` is 0. -/
structure EslHandle where
  connected : Bool
  packetBuf : EslBuffer
  lastReply : Text := []
  lastSrReply : Text := []
  lastEvent : Option EslEvent := none
  lastSrEvent : Option EslEvent := none
  raceEvent : List EslEvent := []
  lastIevent : Option EslEvent := none
  infoEvent : Option EslEvent := none
  asyncExecute : Bool := false
  eventLock : Bool := false
  /-- What `esl_send` wrote to the socket. -/
  written : Text := []
  deriving DecidableEq, Repr

/-- A handle behind `esl_buffer_create` and the connection. -/
def EslHandle.connect : EslHandle := { connected := true, packetBuf := eslBufferCreate bufChunk bufStart 0 }

/-! ## Reading messages -/

/-- What stands between two positions of `strchr`: before the first `c`, and behind it. -/
def splitAt (c : Char) (text : Text) : Option (Text × Text) :=
  match text.dropWhile (· ≠ c) with
  | [] => none
  | _ :: behind => some (text.takeWhile (· ≠ c), behind)

/-- A header of a message added to its event. -/
def addHeader (hname hval : Text) (event : EslEvent) : EslEvent :=
  if "ARRAY::".toList.isPrefixOf hval then event.addArray hname hval
  else event.addHeaderString .bottom hname hval

/-- The loop of `esl_recv_event` over the headers of a packet; a name goes on to the next colon, also
over line ends.  `lines` bounds the headers. -/
def parseHeaders : (lines : Nat) → Text → EslEvent → EslEvent
  | 0, _, revent => revent
  | lines + 1, p, revent =>
    match splitAt ':' p with
    | none => revent
    | some (hname, behind) =>
      match splitAt '\n' (behind.dropWhile fun c => c = ' ' ∨ c = '\t') with
      | none => revent
      | some (hval, e) =>
        parseHeaders lines (e.dropWhile fun c => c = '\n' ∨ c = '\r') (addHeader hname (eslUrlDecode hval) revent)

/-- The event of a packet: `ESL_EVENT_SOCKET_DATA` with the headers of the packet. -/
def parsePacket (data : Text) : EslEvent :=
  parseHeaders data.length data
    ({ EslEvent.clone with eventId := eslEventSocketData }.addHeaderString .bottom "Event-Name".toList
      "SOCKET_DATA".toList)

/-- One header of an event in a body; an `Event-Name` takes the place of those before it. -/
def addInnerHeader (hname hval : Text) (ievent : EslEvent) : EslEvent :=
  let ievent :=
    if strcaseeq hname "event-name".toList then
      let bare := ievent.delHeader "event-name".toList
      { bare with eventId := (eslNameEvent hval).getD bare.eventId }
    else ievent
  addHeader hname hval ievent

/-- The loop of `esl_recv_event` over the lines of an event in a body, and the text it stops at.  A line
without a colon takes the next one in the text behind it, and the text ends there for the loop. -/
def parseLines : (lines : Nat) → Text → EslEvent → EslEvent × Text
  | 0, beg, ievent => (ievent, beg)
  | lines + 1, beg, ievent =>
    match splitAt '\n' beg with
    | none => (ievent, beg)
    | some (line, behind) =>
      let (ievent, beg) :=
        match splitAt ':' line with
        | some (hname, hval) => (addInnerHeader hname (eslUrlDecode (hval.dropWhile (· = ' '))) ievent, behind)
        | none =>
          match splitAt ':' behind with
          | some (before, hval) => (addInnerHeader line (eslUrlDecode (hval.dropWhile (· = ' '))) ievent, before)
          | none => (ievent, behind)
      match beg with
      | '\n' :: rest => (ievent, rest)
      | _ => parseLines lines beg ievent

/-- The event in a body of the type `text/event-plain`. -/
def parsePlain (body : Text) : EslEvent :=
  let text := cString body
  let (ievent, beg) := parseLines text.length text EslEvent.clone
  match ievent.getHeader "content-length".toList with
  | some _ => { ievent with body := some beg }
  | none => ievent

/-! ## Receiving -/

/-- `esl_safe_strcasecmp(s1, s2) == 0`. -/
def safeStrcaseeq (s1 : Option Text) (s2 : String) : Bool :=
  match s1 with
  | some s1 => strcaseeq s1 s2.toList
  | none => false

/-- `esl_strlen_zero`. -/
def strlenZero (s : Option Text) : Bool := s.getD [] == []

section Receiving

variable (fresh : Nat → Char) (createJson : Text → Option EslEvent)

/-- What a wait for bytes takes from the packet buffer: something, or nothing yet. -/
abbrev Take := EslBuffer → Except EslFault (Option Text × EslBuffer)

/-- A packet, and the zero byte put behind it. -/
def takePacket : Take := fun packetBuf => do
  let (packet, packetBuf) ← packetBuf.readPacket (socketBufSize - 1)
  pure (if packet.length ≠ 0 then some packet else none, packetBuf)

/-- A body of `len` bytes. -/
def takeBody (len : Nat) : Take := fun packetBuf =>
  if len ≤ packetBuf.inuse then
    let (body, packetBuf) := packetBuf.read len
    .ok (some body, packetBuf)
  else .ok (none, packetBuf)

/-- The two loops of `esl_recv_event` that read the socket until something can be taken; none is a
failure. -/
def receive (take : Take) (packetBuf : EslBuffer) (socket : List Recv) :
    Except EslStop (Option Text × EslBuffer × List Recv) := do
  match ← orFault (take packetBuf) with
  | (some taken, packetBuf) => pure (some taken, packetBuf, socket)
  | (none, packetBuf) =>
    match socket with
    | [] => .error .waiting
    | .failed :: socket => pure (none, packetBuf, socket)
    | .again :: socket => receive take packetBuf socket
    | .data bytes :: socket =>
      let (_, packetBuf) ← orFault (packetBuf.write fresh bytes)
      receive take packetBuf socket
termination_by structural socket

/-- A message read from the connection: a packet, and the body it announces. -/
def receiveMessage (handle : EslHandle) (socket : List Recv) :
    Except EslStop (Option EslEvent × EslHandle × List Recv) := do
  let (data, packetBuf, socket) ← receive fresh takePacket handle.packetBuf socket
  let handle := { handle with packetBuf }
  match data with
  | none => pure (none, handle, socket)
  | some data =>
    let revent := parsePacket data
    match revent.getHeader "content-length".toList with
    | none => pure (some revent, handle, socket)
    | some cl =>
      match atol cl with
      | .negSucc _ => .error (.fault .negativeLength)
      | .ofNat len =>
        let (body, packetBuf, socket) ← receive fresh (takeBody len) packetBuf socket
        let handle := { handle with packetBuf }
        match body with
        | none => pure (none, handle, socket)
        | some body => pure (some { revent with body := some body }, handle, socket)

/-- `parse_event`: the event becomes `last_event`, and one in its body `last_ievent`. -/
def parseEvent (revent : EslEvent) (handle : EslHandle) : EslStatus × EslHandle :=
  let hval := revent.getHeader "reply-text".toList
  let handle :=
    { handle with
      lastEvent := some revent
      lastReply := if strlenZero hval then handle.lastReply else (hval.getD []).take 1024 }
  let hval := revent.getHeader "content-type".toList
  let dval := revent.getHeader "content-disposition".toList
  if safeStrcaseeq hval "text/disconnect-notice" ∧ revent.body.isSome ∧
      (strlenZero dval ∨ safeStrcaseeq dval "linger" = false) then
    (.fail, { handle with connected := false })
  else
    match revent.body with
    | none => (.success, handle)
    | some body =>
      if safeStrcaseeq hval "text/event-plain" then
        (.success, { handle with lastIevent := some (parsePlain body) })
      else if safeStrcaseeq hval "text/event-json" then
        (.success, { handle with lastIevent := createJson (cString body) })
      else (.success, handle)

/-- `esl_recv_event` up to `parse_event`: the next event, from the queue where it is checked; none is a
failure. -/
def nextEvent (checkQ : Bool) (handle : EslHandle) (socket : List Recv) :
    Except EslStop (Option EslEvent × EslHandle × List Recv) :=
  if handle.connected = false then pure (none, handle, socket)
  else
    let handle := { handle with lastIevent := none }
    match if checkQ then handle.raceEvent else [] with
    | revent :: raceEvent => pure (some revent, { handle with raceEvent }, socket)
    | [] => receiveMessage fresh handle socket

/-- `esl_recv_event(handle, check_q, NULL)`. -/
def eslRecvEvent (checkQ : Bool) (handle : EslHandle) (socket : List Recv) :
    Except EslStop (EslStatus × EslHandle × List Recv) := do
  match ← nextEvent fresh checkQ handle socket with
  | (none, handle, socket) => pure (.fail, { handle with connected := false }, socket)
  | (some revent, handle, socket) =>
    let (status, handle) := parseEvent createJson revent handle
    pure (status, handle, socket)

/-- `esl_recv_event(handle, check_q, &save_event)`. -/
def eslRecvSaving (checkQ : Bool) (handle : EslHandle) (socket : List Recv) :
    Except EslStop (EslStatus × Option EslEvent × EslHandle × List Recv) := do
  match ← nextEvent fresh checkQ handle socket with
  | (none, handle, socket) => pure (.fail, none, { handle with connected := false }, socket)
  | (some revent, handle, socket) => pure (.success, some revent, handle, socket)

/-! ## Commands -/

/-- The bytes `esl_send` writes: a command, with the line ends it needs. -/
def sentText (cmd : Text) : Text :=
  if ['\n', '\n'].isSuffixOf cmd then cmd else cmd ++ ['\n', '\n']

/-- What waits in `race_event` rather than being a reply: a content type other than the two of replies. -/
def isRaceEvent (event : EslEvent) : Bool :=
  match event.getHeader "content-type".toList with
  | some ct => !strcaseeq ct "api/response".toList && !strcaseeq ct "command/reply".toList
  | none => false

/-- The round of `esl_send_recv_timed` at `recv`, under the mutex: a reply or a failure ends it, and an
event that came first goes to the queue. -/
def recvRound (handle : EslHandle) (socket : List Recv) :
    Except EslStop (Option EslStatus × EslHandle × List Recv) := do
  if handle.connected = false then pure (some .fail, handle, socket)
  else
    let handle := { handle with lastSrEvent := none, lastSrReply := [] }
    let (status, saved, handle, socket) ← eslRecvSaving fresh false handle socket
    match saved with
    | none => pure (some status, handle, socket)
    | some event =>
      if isRaceEvent event then pure (none, { handle with raceEvent := handle.raceEvent ++ [event] }, socket)
      else
        let hval := event.getHeader "reply-text".toList
        pure (some status,
          { handle with
            lastSrEvent := some event
            lastSrReply := if strlenZero hval then handle.lastSrReply else (hval.getD []).take 1024 }, socket)

/-- The bytes that came or will come over the connection and are not taken yet. -/
def pending (handle : EslHandle) (socket : List Recv) : Nat :=
  handle.packetBuf.inuse + (socket.map fun recv => match recv with | .data bytes => bytes.length | _ => 0).sum

/-- The rounds of `esl_send_recv_timed`; every round but the last takes an event off the connection. -/
def recvRounds : (rounds : Nat) → EslHandle → List Recv → Except EslStop (EslStatus × EslHandle × List Recv)
  | 0, _, _ => .error .waiting
  | rounds + 1, handle, socket => do
    match ← recvRound fresh handle socket with
    | (some status, handle, socket) => pure (status, handle, socket)
    | (none, handle, socket) => recvRounds rounds handle socket

/-- `esl_send`; `sent` is whether the socket takes everything. -/
def eslSend (cmd : Text) (sent : Bool) (handle : EslHandle) : EslStatus × EslHandle :=
  if handle.connected = false then (.fail, handle)
  else if sent then (.success, { handle with written := handle.written ++ sentText cmd })
  else (.fail, { handle with connected := false })

/-- `esl_send_recv(handle, cmd)`. -/
def eslSendRecv (cmd : Text) (sent : Bool) (handle : EslHandle) (socket : List Recv) :
    Except EslStop (EslStatus × EslHandle × List Recv) :=
  if handle.connected = false then .ok (.fail, handle, socket)
  else
    match eslSend cmd sent { handle with lastSrEvent := none, lastSrReply := [] } with
    | (.fail, handle) => .ok (.fail, handle, socket)
    | (.success, handle) => recvRounds fresh (pending handle socket + 1) handle socket

/-- `snprintf(buffer, size, ..)`. -/
def snprintf (size : Nat) (text : Text) : Text := text.take (size - 1)

/-- The command `esl_execute` sends. -/
def executeText (app : Text) (arg uuid : Option Text) (handle : EslHandle) : Text :=
  let cmdBuf :=
    match uuid with
    | some uuid => snprintf 128 ("sendmsg ".toList ++ uuid)
    | none => "sendmsg".toList
  let appBuf := snprintf 512 ("execute-app-name: ".toList ++ app ++ "\n".toList)
  let argBuf :=
    match arg with
    | some arg => snprintf 4096 ("execute-app-arg: ".toList ++ arg ++ "\n".toList)
    | none => []
  snprintf 5120 (cmdBuf ++ "\ncall-command: execute\n".toList ++ appBuf ++ argBuf ++
    (if handle.eventLock then "event-lock: true\n".toList else []) ++
    (if handle.asyncExecute then "async: true\n".toList else []) ++ "\n".toList)

/-- `esl_execute`. -/
def eslExecute (app : Text) (arg uuid : Option Text) (sent : Bool) (handle : EslHandle) (socket : List Recv) :
    Except EslStop (EslStatus × EslHandle × List Recv) :=
  if handle.connected = false then .ok (.fail, handle, socket)
  else eslSendRecv fresh (executeText app arg uuid handle) sent handle socket

/-- `esl_events(handle, ESL_EVENT_TYPE_PLAIN, value)`. -/
def eslEvents (value : Text) (sent : Bool) (handle : EslHandle) (socket : List Recv) :
    Except EslStop (EslStatus × EslHandle × List Recv) :=
  if handle.connected = false then .ok (.fail, handle, socket)
  else eslSendRecv fresh (snprintf 1024 ("event plain ".toList ++ value ++ "\n\n".toList)) sent handle socket

/-- `esl_attach_handle` behind `sock_setup`; `esl_disconnect` closes what it could not attach. -/
def eslAttachHandle (sent : Bool) (socket : List Recv) : Except EslStop (EslStatus × EslHandle × List Recv) := do
  let (_, handle, socket) ← eslSendRecv fresh "connect\n\n".toList sent .connect socket
  match handle.lastSrEvent with
  | some event => pure (.success, { handle with infoEvent := some event, lastSrEvent := none }, socket)
  | none => pure (.fail, { handle with connected := false }, socket)

/-- `esl_connect` behind `connect(2)`: the request to authenticate, the password, and the answer to it. -/
def eslConnect (password : Text) (sent : Bool) (socket : List Recv) :
    Except EslStop (EslStatus × EslHandle × List Recv) := do
  let (status, handle, socket) ← eslRecvEvent fresh createJson false .connect socket
  if status ≠ .success then pure (.fail, { handle with connected := false }, socket)
  else if safeStrcaseeq (handle.lastEvent.bind (·.getHeader "content-type".toList)) "auth/request" = false then
    pure (.fail, { handle with connected := false }, socket)
  else
    let (_, handle) := eslSend (snprintf 256 ("auth ".toList ++ password ++ "\n\n".toList)) sent handle
    let (status, handle, socket) ← eslRecvEvent fresh createJson false handle socket
    if status ≠ .success then pure (.fail, { handle with connected := false }, socket)
    else if safeStrcaseeq (handle.lastEvent.bind (·.getHeader "reply-text".toList)) "+OK accepted" = false then
      pure (.fail, { handle with connected := false }, socket)
    else pure (.success, handle, socket)

end Receiving

end CallCenter.Model
