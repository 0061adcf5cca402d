import CallCenter.Foundation.Framing
import CallCenter.Model.EslHandle
import CallCenter.Verified.PacketBuffer

/-!
# Messages of a connection

What `esl_recv_event` reads is the next message of the stream: the bytes in the packet buffer and those
that are still to come, whatever reads of the socket deliver them.
-/

namespace CallCenter.Verified.EslReceiving

open CallCenter.Foundation (Text)
open CallCenter.Foundation.Framing
open CallCenter.Foundation.Numerals (atol)
open CallCenter.Model CallCenter.Model.EslBuffer
open CallCenter.Verified.PacketBuffer

/-- The bytes that arrive before the connection fails. -/
def arriving : List Recv → Text
  | [] => []
  | .data bytes :: socket => bytes ++ arriving socket
  | .again :: socket => arriving socket
  | .failed :: _ => []

/-- The connection fails. -/
def fails (socket : List Recv) : Bool := socket.contains .failed

@[simp] theorem fails_nil : fails [] = false := rfl

@[simp] theorem fails_data (bytes : Text) (socket : List Recv) : fails (.data bytes :: socket) = fails socket := by
  simp [fails]

@[simp] theorem fails_again (socket : List Recv) : fails (.again :: socket) = fails socket := by
  simp [fails]

@[simp] theorem fails_failed (socket : List Recv) : fails (.failed :: socket) = true := by
  simp [fails]

/-- The memory holds all that is still to come and a byte more, and was never written behind the bytes
in use; so it is with the first `BUF_START - 1` bytes of a connection. -/
structure Roomy (buffer : EslBuffer) (socket : List Recv) : Prop where
  placed : Placed buffer
  unlimited : buffer.maxLen = 0
  room : buffer.actuallyUsed + (arriving socket).length < buffer.data.length
  unwritten : ∀ c ∈ buffer.data.drop buffer.actuallyUsed, c = '\x00'

theorem Roomy.noLineBehind {buffer : EslBuffer} {socket : List Recv} (roomy : Roomy buffer socket) :
    NoLineBehind buffer := by
  have room := roomy.room
  have inside : buffer.actuallyUsed < buffer.data.length := by omega
  refine ⟨buffer.data[buffer.actuallyUsed], ?_, ?_⟩
  · rw [roomy.placed.ends]
    exact List.getElem?_eq_getElem inside
  · have zero : buffer.data[buffer.actuallyUsed] = '\x00' := by
      refine roomy.unwritten _ ?_
      rw [List.drop_eq_getElem_cons inside]
      exact List.mem_cons_self
    rw [zero]
    decide

/-- A new buffer has room for as many bytes as it is long, but one. -/
theorem roomy_create (blocksize : Nat) {startLen : Nat} {socket : List Recv}
    (few : (arriving socket).length < startLen) : Roomy (eslBufferCreate blocksize startLen 0) socket where
  placed := placed_create _ _ (Nat.lt_of_le_of_lt (Nat.zero_le _) few)
  unlimited := rfl
  room := by
    rw [eslBufferCreate, List.length_replicate, Nat.zero_add]
    exact few
  unwritten := by
    intro c member
    exact List.eq_of_mem_replicate (List.mem_of_mem_drop member)

/-- So has a connection for those that `BUF_START` leaves it. -/
theorem roomy_connect {socket : List Recv} (few : (arriving socket).length < bufStart) :
    Roomy EslHandle.connect.packetBuf socket :=
  roomy_create bufChunk few

theorem roomy_pass {buffer : EslBuffer} {socket : List Recv} (roomy : Roomy buffer socket) {count : Nat}
    (held : count ≤ buffer.used) : Roomy (pass count buffer) socket where
  placed := placed_pass roomy.placed held
  unlimited := roomy.unlimited
  room := roomy.room
  unwritten := roomy.unwritten

theorem roomy_again {buffer : EslBuffer} {socket : List Recv} (roomy : Roomy buffer (.again :: socket)) :
    Roomy buffer socket :=
  ⟨roomy.placed, roomy.unlimited, roomy.room, roomy.unwritten⟩

/-- Bytes that arrived are written behind those in use. -/
theorem roomy_write {buffer : EslBuffer} {bytes : Text} {socket : List Recv}
    (roomy : Roomy buffer (.data bytes :: socket)) (fresh : Nat → Char) :
    ∃ returned written, buffer.write fresh bytes = .ok (returned, written) ∧ Roomy written socket ∧
      contents written = contents buffer ++ bytes := by
  have room := roomy.room
  rw [arriving, List.length_append] at room
  by_cases nothing : bytes = []
  · subst nothing
    refine ⟨buffer.used, buffer, ?_, ⟨roomy.placed, roomy.unlimited, ?_, roomy.unwritten⟩, ?_⟩
    · rw [write, if_neg roomy.placed.allocated, if_pos rfl]
    · rw [List.length_nil] at room
      omega
    · rw [List.append_nil]
  · obtain ⟨written, isWritten, placed, _, appended, _, behind, maxLen, _⟩ :=
      write_eq roomy.placed fresh nothing (.inl roomy.unlimited)
    obtain ⟨behind, last⟩ := behind (by omega)
    have length : (written.data.drop written.actuallyUsed).length =
        (buffer.data.drop (buffer.actuallyUsed + bytes.length)).length := congrArg List.length behind
    rw [List.length_drop, List.length_drop] at length
    refine ⟨written.used, written, isWritten, ⟨placed, by rw [maxLen, roomy.unlimited], ?_, ?_⟩, appended⟩
    · omega
    · intro c member
      rw [behind, ← List.drop_drop] at member
      exact roomy.unwritten c (List.mem_of_mem_drop member)

/-! ## What a wait takes -/

/-- A take gets what the decoder finds in the bytes in use. -/
def Takes (take : Take) (found : Decoder Char Text) : Prop :=
  ∀ {buffer : EslBuffer} {socket : List Recv}, Roomy buffer socket →
    ∃ after, take buffer = .ok ((found (contents buffer)).map Prod.fst, after) ∧ Roomy after socket ∧
      contents after = ((found (contents buffer)).map Prod.snd).getD (contents buffer)

/-- A packet, as long as `socket_buf` holds it. -/
def nextPacket : Decoder Char Text := fun text =>
  (packetIn text).map fun length =>
    (text.take (min (socketBufSize - 1) length), text.drop (min (socketBufSize - 1) length))

/-- A body. -/
def nextBody (len : Nat) : Decoder Char Text := fun text =>
  if len ≤ text.length then some (text.take len, text.drop len) else none

theorem nextPacket_stable : Stable nextPacket := by
  intro text packet rest found more
  obtain ⟨length, isPacket, same⟩ := Option.map_eq_some_iff.mp found
  have within := (packetIn_le isPacket).2
  cases same
  rw [nextPacket, packetIn_append isPacket more, Option.map_some, List.take_append_of_le_length (by omega),
    List.drop_append_of_le_length (by omega)]

theorem nextBody_stable (len : Nat) : Stable (nextBody len) := by
  intro text body rest found more
  rw [nextBody] at found
  split at found
  · rename_i enough
    cases found
    rw [nextBody, List.length_append, if_pos (by omega), List.take_append_of_le_length enough,
      List.drop_append_of_le_length enough]
  · cases found

theorem takePacket_takes : Takes takePacket nextPacket := by
  intro buffer socket roomy
  have read := readPacket_eq roomy.placed (socketBufSize - 1) (.inr roomy.noLineBehind)
  have held := length_contents roomy.placed
  rw [read_eq] at read
  rw [takePacket, read, nextPacket]
  cases found : packetIn (contents buffer) with
  | none =>
    refine ⟨pass 0 buffer, ?_, roomy_pass roomy (Nat.zero_le _), ?_⟩
    · simp [bind, Except.bind, pure, Except.pure]
    · rw [contents_pass]
      rfl
  | some length =>
    obtain ⟨some, within⟩ := packetIn_le found
    have cut : min (socketBufSize - 1) length ≤ buffer.used := by omega
    have taken : ((contents buffer).take (min (socketBufSize - 1) length)).length ≠ 0 := by
      rw [List.length_take, socketBufSize]
      omega
    refine ⟨pass (min (socketBufSize - 1) length) buffer, ?_, roomy_pass roomy cut, ?_⟩
    · simp only [Option.getD_some, Nat.min_eq_left cut, bind, Except.bind, pure, Except.pure, if_pos taken,
        Option.map_some]
    · rw [contents_pass]
      rfl

theorem takeBody_takes (len : Nat) : Takes (takeBody len) (nextBody len) := by
  intro buffer socket roomy
  have length := length_contents roomy.placed
  rw [takeBody, inuse, nextBody, length, read_eq]
  by_cases enough : len ≤ buffer.used
  · rw [if_pos enough, if_pos enough]
    refine ⟨_, rfl, roomy_pass roomy (Nat.min_le_right _ _), ?_⟩
    rw [contents_pass, Nat.min_eq_left enough]
    rfl
  · rw [if_neg enough, if_neg enough]
    exact ⟨_, rfl, roomy, rfl⟩

/-! ## A wait -/

/-- A wait ends with what the decoder finds in the bytes in use and those that arrive; where it finds
nothing, it ends with the connection. -/
theorem receive_eq (fresh : Nat → Char) {take : Take} {found : Decoder Char Text} (takes : Takes take found)
    (stable : Stable found) {buffer : EslBuffer} {socket : List Recv} (roomy : Roomy buffer socket) :
    match found (contents buffer ++ arriving socket) with
    | some (taken, rest) =>
      ∃ after left, receive fresh take buffer socket = .ok (some taken, after, left) ∧ Roomy after left ∧
        contents after ++ arriving left = rest ∧ fails left = fails socket
    | none =>
      if fails socket then ∃ after left, receive fresh take buffer socket = .ok (none, after, left)
      else receive fresh take buffer socket = .error .waiting := by
  induction socket generalizing buffer with
  | nil =>
    obtain ⟨after, isTaken, roomyAfter, left⟩ := takes roomy
    rw [receive, isTaken, arriving, List.append_nil]
    cases isFound : found (contents buffer) with
    | none => rfl
    | some both =>
      rw [isFound] at left
      exact ⟨after, [], rfl, roomyAfter, by rw [arriving, List.append_nil, left]; rfl, rfl⟩
  | cons recv socket inductionHypothesis =>
    obtain ⟨after, isTaken, roomyAfter, left⟩ := takes roomy
    rw [receive, isTaken]
    cases isFound : found (contents buffer) with
    | some both =>
      rw [isFound] at left
      obtain ⟨taken, rest⟩ := both
      rw [stable isFound]
      exact ⟨after, recv :: socket, rfl, roomyAfter, by rw [left]; rfl, rfl⟩
    | none =>
      rw [isFound] at left
      have unchanged : contents after = contents buffer := left
      cases recv with
      | failed =>
        rw [arriving, List.append_nil, isFound, fails_failed, if_pos rfl]
        exact ⟨after, socket, rfl⟩
      | again =>
        rw [arriving, fails_again, ← unchanged]
        exact inductionHypothesis (roomy_again roomyAfter)
      | data bytes =>
        obtain ⟨returned, written, isWritten, roomyWritten, appended⟩ := roomy_write roomyAfter fresh
        have continued := inductionHypothesis roomyWritten
        rw [appended, unchanged, List.append_assoc] at continued
        rw [arriving, fails_data]
        simp only [orFault, bind, Except.bind, Option.map_none, isWritten]
        exact continued

/-! ## Messages -/

/-- The next message of a stream: a packet, and the body it announces. -/
def nextMessage : Decoder Char (Except EslFault EslEvent) := fun stream =>
  match nextPacket stream with
  | none => none
  | some (packet, rest) =>
    match (parsePacket packet).getHeader "content-length".toList with
    | none => some (.ok (parsePacket packet), rest)
    | some cl =>
      match atol cl with
      | .negSucc _ => some (.error .negativeLength, rest)
      | .ofNat len =>
        (nextBody len rest).map fun (body, rest) => (.ok { parsePacket packet with body := some body }, rest)

theorem nextMessage_stable : Stable nextMessage := by
  intro stream message rest found more
  rw [nextMessage] at found ⊢
  cases isPacket : nextPacket stream with
  | none =>
    rw [isPacket] at found
    cases found
  | some both =>
    obtain ⟨packet, behind⟩ := both
    rw [isPacket] at found
    rw [nextPacket_stable isPacket]
    dsimp only at found ⊢
    cases length : (parsePacket packet).getHeader "content-length".toList with
    | none =>
      rw [length] at found
      cases found
      rfl
    | some cl =>
      rw [length] at found
      dsimp only at found ⊢
      cases number : atol cl with
      | negSucc _ =>
        rw [number] at found
        cases found
        rfl
      | ofNat len =>
        rw [number] at found
        obtain ⟨⟨body, left⟩, isBody, same⟩ := Option.map_eq_some_iff.mp found
        cases same
        dsimp only
        rw [nextBody_stable len isBody]
        rfl

/-- The bytes of a connection that no message was read from yet. -/
def stream (handle : EslHandle) (socket : List Recv) : Text := contents handle.packetBuf ++ arriving socket

/-- What a wait for a message ends with, by the next message of the stream. -/
def Receives (fresh : Nat → Char) (handle : EslHandle) (socket : List Recv) :
    Option (Except EslFault EslEvent × Text) → Prop
  | some (.ok event, rest) =>
    ∃ packetBuf left, receiveMessage fresh handle socket = .ok (some event, { handle with packetBuf }, left) ∧
      Roomy packetBuf left ∧ stream { handle with packetBuf } left = rest ∧ fails left = fails socket
  | some (.error fault, _) => receiveMessage fresh handle socket = .error (.fault fault)
  | none =>
    if fails socket then
      ∃ packetBuf left, receiveMessage fresh handle socket = .ok (none, { handle with packetBuf }, left)
    else receiveMessage fresh handle socket = .error .waiting

/-- The message that is received is the next one of the stream. -/
theorem receiveMessage_eq (fresh : Nat → Char) (handle : EslHandle) {socket : List Recv}
    (roomy : Roomy handle.packetBuf socket) :
    Receives fresh handle socket (nextMessage (stream handle socket)) := by
  have packets := receive_eq fresh takePacket_takes nextPacket_stable roomy
  rw [nextMessage, stream]
  cases isPacket : nextPacket (contents handle.packetBuf ++ arriving socket) with
  | none =>
    rw [isPacket] at packets
    dsimp only at packets ⊢
    rw [Receives]
    split
    · rename_i ended
      rw [if_pos ended] at packets
      obtain ⟨after, left, isReceived⟩ := packets
      exact ⟨after, left, by rw [receiveMessage, isReceived]; rfl⟩
    · rename_i open_
      rw [if_neg open_] at packets
      rw [receiveMessage, packets]
      rfl
  | some both =>
    obtain ⟨packet, behind⟩ := both
    rw [isPacket] at packets
    obtain ⟨after, left, isReceived, roomyAfter, streamAfter, failsAfter⟩ := packets
    dsimp only
    cases length : (parsePacket packet).getHeader "content-length".toList with
    | none =>
      refine ⟨after, left, ?_, roomyAfter, streamAfter, failsAfter⟩
      simp only [receiveMessage, isReceived, bind, Except.bind, length, pure, Except.pure]
    | some cl =>
      dsimp only
      cases number : atol cl with
      | negSucc _ =>
        simp only [Receives, receiveMessage, isReceived, bind, Except.bind, length, number]
      | ofNat len =>
        have bodies := receive_eq fresh (takeBody_takes len) (nextBody_stable len) roomyAfter
        rw [streamAfter] at bodies
        dsimp only
        cases isBody : nextBody len behind with
        | none =>
          rw [isBody, failsAfter] at bodies
          dsimp only at bodies
          rw [Option.map_none, Receives]
          split
          · rename_i ended
            rw [if_pos ended] at bodies
            obtain ⟨afterBody, leftBody, noBody⟩ := bodies
            refine ⟨afterBody, leftBody, ?_⟩
            simp only [receiveMessage, isReceived, bind, Except.bind, length, number, noBody, pure, Except.pure]
          · rename_i open_
            rw [if_neg open_] at bodies
            simp only [receiveMessage, isReceived, bind, Except.bind, length, number, bodies]
        | some both =>
          obtain ⟨body, rest⟩ := both
          rw [isBody] at bodies
          obtain ⟨afterBody, leftBody, bodyReceived, roomyBody, streamBody, failsBody⟩ := bodies
          refine ⟨afterBody, leftBody, ?_, roomyBody, streamBody, failsBody.trans failsAfter⟩
          simp only [receiveMessage, isReceived, bind, Except.bind, length, number, bodyReceived, pure, Except.pure]

/-- Of the handle, waiting for a message changes the packet buffer only. -/
theorem receiveMessage_keeps {fresh : Nat → Char} {handle after : EslHandle} {socket left : List Recv}
    {message : Option EslEvent} (received : receiveMessage fresh handle socket = .ok (message, after, left)) :
    ∃ packetBuf, after = { handle with packetBuf } := by
  rw [receiveMessage] at received
  cases packet : receive fresh takePacket handle.packetBuf socket with
  | error stop =>
    rw [packet] at received
    cases received
  | ok result =>
    obtain ⟨data, packetBuf, socket'⟩ := result
    rw [packet] at received
    simp only [bind, Except.bind, pure, Except.pure] at received
    cases data with
    | none =>
      cases received
      exact ⟨packetBuf, rfl⟩
    | some data =>
      dsimp only at received
      split at received
      · cases received
        exact ⟨packetBuf, rfl⟩
      · split at received
        · cases received
        · rename_i len _
          cases bodyResult : receive fresh (takeBody len) packetBuf socket' with
          | error stop =>
            rw [bodyResult] at received
            cases received
          | ok result =>
            obtain ⟨body, packetBuf, socket''⟩ := result
            rw [bodyResult] at received
            dsimp only at received
            split at received
            all_goals
              cases received
              exact ⟨packetBuf, rfl⟩

/-- A message that was received was the next one. -/
theorem next_of_received {fresh : Nat → Char} (handle : EslHandle) {after : EslHandle} {socket left : List Recv}
    (roomy : Roomy handle.packetBuf socket) {event : EslEvent}
    (received : receiveMessage fresh handle socket = .ok (some event, after, left)) :
    ∃ packetBuf, after = { handle with packetBuf } ∧ Roomy packetBuf left ∧
      nextMessage (stream handle socket) = some (.ok event, stream after left) := by
  have receives := receiveMessage_eq fresh handle roomy
  cases isNext : nextMessage (stream handle socket) with
  | none =>
    rw [isNext, Receives, received] at receives
    split at receives
    · obtain ⟨_, _, same⟩ := receives
      cases same
    · cases receives
  | some both =>
    obtain ⟨message, rest⟩ := both
    rw [isNext] at receives
    cases message with
    | error fault =>
      rw [Receives, received] at receives
      cases receives
    | ok event' =>
      obtain ⟨packetBuf, left', same, roomyAfter, streamAfter, _⟩ := receives
      rw [received] at same
      cases same
      exact ⟨packetBuf, rfl, roomyAfter, by rw [streamAfter]⟩

/-- A wait for a message that failed did so because there is no further one. -/
theorem none_of_failed {fresh : Nat → Char} (handle : EslHandle) {after : EslHandle} {socket left : List Recv}
    (roomy : Roomy handle.packetBuf socket)
    (received : receiveMessage fresh handle socket = .ok (none, after, left)) :
    (∃ packetBuf, after = { handle with packetBuf }) ∧ nextMessage (stream handle socket) = none ∧
      fails socket = true := by
  have receives := receiveMessage_eq fresh handle roomy
  cases isNext : nextMessage (stream handle socket) with
  | none =>
    rw [isNext, Receives, received] at receives
    split at receives
    · rename_i ended
      obtain ⟨packetBuf, _, same⟩ := receives
      cases same
      exact ⟨⟨packetBuf, rfl⟩, rfl, ended⟩
    · cases receives
  | some both =>
    obtain ⟨message, rest⟩ := both
    rw [isNext] at receives
    cases message with
    | error fault =>
      rw [Receives, received] at receives
      cases receives
    | ok event =>
      obtain ⟨_, _, same, _⟩ := receives
      rw [received] at same
      cases same

end CallCenter.Verified.EslReceiving
