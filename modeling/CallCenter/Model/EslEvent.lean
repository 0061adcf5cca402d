import CallCenter.Foundation.Numerals
import CallCenter.Model.EslBuffer

/-!
# Events of the event socket library

`esl_event.c`, and the texts of `esl.c` that go through the wire: percent-encoding and the pieces of an
array.  A header is a value, or an array of values with the text drawn from it.
-/

namespace CallCenter.Model

open CallCenter.Foundation (Text)
open CallCenter.Foundation.Text (isspace cString)
open CallCenter.Foundation.Numerals (digitValue atol toInt32)

/-! ## Texts -/

/-- The characters of `urlunsafe`. -/
def urlunsafe : Text := "\r\n \"#%&+:;<=>?@[\\]^\x60\x7b|\x7d".toList

/-- A character `esl_url_encode` escapes; a `char` is signed, so bytes from 128 on are below a blank. -/
def escaped (c : Char) : Bool := c < ' ' || c > '~' || urlunsafe.contains c

/-- `hex[n]`. -/
def hexDigit (n : Nat) : Char := if n < 10 then Char.ofNat (48 + n) else Char.ofNat (55 + n)

/-- The loop of `esl_url_encode` with what is in `buf`; the digit of a negative `char` is read in front
of `hex`. -/
def eslUrlEncodeFrom (len : Nat) (buf : Text) : Text → Except EslFault Text
  | [] => .ok buf
  | c :: rest =>
    if len ≤ buf.length then .ok buf
    else if escaped c then
      if len ≤ buf.length + 3 then .ok buf
      else if 128 ≤ c.toNat then .error .overread
      else eslUrlEncodeFrom len (buf ++ ['%', hexDigit (c.toNat / 16), hexDigit (c.toNat % 16)]) rest
    else eslUrlEncodeFrom len (buf ++ [c]) rest

/-- `esl_url_encode` into a buffer of `len` bytes; `len--` takes 0 to the greatest `size_t`. -/
def eslUrlEncode (url : Text) (len : Nat) : Except EslFault Text :=
  eslUrlEncodeFrom (if len = 0 then 2 ^ 64 - 1 else len - 1) [] url

/-- A hexadecimal digit. -/
def hexValue? (c : Char) : Option Nat := (digitValue c).filter (· < 16)

/-- `sscanf(text, "%2x", &tmp)`: white space, and of the next two characters a sign and a number.  A
`0x` with nothing behind it is 0. -/
def scan2x (text : Text) : Option (BitVec 32) :=
  match text.dropWhile isspace with
  | [] => none
  | [a] => (hexValue? a).map (.ofNat 32)
  | a :: b :: _ =>
    if a = '+' then (hexValue? b).map (.ofNat 32)
    else if a = '-' then (hexValue? b).map fun digit => -.ofNat 32 digit
    else
      match hexValue? a, hexValue? b with
      | some high, some low => some (.ofNat 32 (16 * high + low))
      | some digit, none => some (.ofNat 32 digit)
      | none, _ => none

/-- The loop of `esl_url_decode`: an escape takes two characters with it, whatever was read of them. -/
def eslUrlDecodeLoop : Text → Text
  | [] => []
  | '%' :: a :: b :: rest =>
    match scan2x (a :: b :: rest) with
    | some tmp => Char.ofNat (tmp.toNat % 256) :: eslUrlDecodeLoop rest
    | none => '%' :: eslUrlDecodeLoop (a :: b :: rest)
  | c :: rest => c :: eslUrlDecodeLoop rest

/-- `esl_url_decode`: the C string it leaves. -/
def eslUrlDecode (text : Text) : Text := cString (eslUrlDecodeLoop text)

/-- `esl_separate_string_string(text, "|:", array, max)`, where `max` counts the pieces. -/
def eslSeparateString : Text → List Text
  | [] => [[]]
  | '|' :: ':' :: rest => [] :: eslSeparateString rest
  | c :: rest =>
    match eslSeparateString rest with
    | piece :: pieces => (c :: piece) :: pieces
    | [] => [[c]]

/-- `strstr(text, part) != NULL`. -/
def strstr (part : Text) : Text → Bool
  | [] => part.isEmpty
  | c :: rest => part.isPrefixOf (c :: rest) || strstr part rest

/-- `strcasecmp(first, second) == 0` in the C locale. -/
def strcaseeq (first second : Text) : Bool := first.map Char.toLower == second.map Char.toLower

/-! ## Headers -/

/-- `esl_ci_hashfunc_default`, an `unsigned int`. -/
def eslCiHash (key : Text) : BitVec 32 :=
  key.foldl (fun hash c => hash * 33 + .ofNat 32 c.toLower.toNat) 0

/-- `esl_event_header`; `idx` is the length of `array`. -/
structure EslHeader where
  name : Text
  value : Text
  array : List Text := []
  hash : BitVec 32
  deriving DecidableEq, Repr

/-- `esl_stack_t`. -/
inductive EslStack where
  | bottom
  | top
  | push
  | unshift
  deriving DecidableEq, Repr

/-- The numbers of the enumeration, which the code uses as bits. -/
def EslStack.code : EslStack → BitVec 2
  | bottom => 0
  | top => 1
  | push => 2
  | unshift => 3

/-- `stack & ESL_STACK_TOP`, `stack & ESL_STACK_PUSH`, `stack & ESL_STACK_UNSHIFT`. -/
def tests (stack : BitVec 2) (flag : EslStack) : Bool := stack &&& flag.code ≠ 0

/-- The elements with the mark between them. -/
def joined : List Text → Text
  | [] => []
  | [element] => element
  | element :: rest => element ++ '|' :: ':' :: joined rest

/-- The text of an array. -/
def drawn (array : List Text) : Text :=
  if array.length > 1 then "ARRAY::".toList ++ joined array else joined array

/-- An element put to a header: its value becomes the first of an array it does not have yet. -/
def EslHeader.put (stack : BitVec 2) (data : Text) (header : EslHeader) : EslHeader :=
  let array := if header.array = [] then [header.value] else header.array
  let array := if tests stack .push then array ++ [data] else data :: array
  { header with array, value := drawn array }

/-! ## Events -/

/-- `EVENT_NAMES`, in the order of `esl_event_types_t`. -/
def eventNames : List String :=
  ["CUSTOM", "CLONE", "CHANNEL_CREATE", "CHANNEL_DESTROY", "CHANNEL_STATE", "CHANNEL_CALLSTATE",
   "CHANNEL_ANSWER", "CHANNEL_HANGUP", "CHANNEL_HANGUP_COMPLETE", "CHANNEL_EXECUTE",
   "CHANNEL_EXECUTE_COMPLETE", "CHANNEL_HOLD", "CHANNEL_UNHOLD", "CHANNEL_BRIDGE", "CHANNEL_UNBRIDGE",
   "CHANNEL_PROGRESS", "CHANNEL_PROGRESS_MEDIA", "CHANNEL_OUTGOING", "CHANNEL_PARK", "CHANNEL_UNPARK",
   "CHANNEL_APPLICATION", "CHANNEL_ORIGINATE", "CHANNEL_UUID", "API", "LOG", "INBOUND_CHAN",
   "OUTBOUND_CHAN", "STARTUP", "SHUTDOWN", "PUBLISH", "UNPUBLISH", "TALK", "NOTALK", "SESSION_CRASH",
   "MODULE_LOAD", "MODULE_UNLOAD", "DTMF", "MESSAGE", "PRESENCE_IN", "NOTIFY_IN", "PRESENCE_OUT",
   "PRESENCE_PROBE", "MESSAGE_WAITING", "MESSAGE_QUERY", "ROSTER", "CODEC", "BACKGROUND_JOB",
   "DETECTED_SPEECH", "DETECTED_TONE", "PRIVATE_COMMAND", "HEARTBEAT", "TRAP", "ADD_SCHEDULE",
   "DEL_SCHEDULE", "EXE_SCHEDULE", "RE_SCHEDULE", "RELOADXML", "NOTIFY", "PHONE_FEATURE",
   "PHONE_FEATURE_SUBSCRIBE", "SEND_MESSAGE", "RECV_MESSAGE", "REQUEST_PARAMS", "CHANNEL_DATA",
   "GENERAL", "COMMAND", "SESSION_HEARTBEAT", "CLIENT_DISCONNECTED", "SERVER_DISCONNECTED",
   "SEND_INFO", "RECV_INFO", "RECV_RTCP_MESSAGE", "CALL_SECURE", "NAT", "RECORD_START", "RECORD_STOP",
   "PLAYBACK_START", "PLAYBACK_STOP", "CALL_UPDATE", "FAILURE", "SOCKET_DATA", "MEDIA_BUG_START",
   "MEDIA_BUG_STOP", "CONFERENCE_DATA_QUERY", "CONFERENCE_DATA", "CALL_SETUP_REQ",
   "CALL_SETUP_RESULT", "CALL_DETAIL", "DEVICE_STATE", "ALL"]

/-- `ESL_EVENT_CUSTOM`, `ESL_EVENT_CLONE`, `ESL_EVENT_SOCKET_DATA`: an `esl_event_types_t` is the
position of its name. -/
def eslEventCustom : Nat := 0

def eslEventClone : Nat := 1

def eslEventSocketData : Nat := 80

/-- `esl_event_name`; the names end where the enumeration does. -/
def eslEventName (eventId : Nat) : Option String := eventNames[eventId]?

/-- `esl_name_event`: the type of that name, also behind a prefix of thirteen characters. -/
def eslNameEvent (name : Text) : Option Nat :=
  eventNames.findIdx? fun known =>
    (name.length > 13 && strcaseeq (name.drop 13) known.toList) || strcaseeq name known.toList

/-- `esl_event`, with what some modelled function reads or writes. -/
structure EslEvent where
  eventId : Nat := eslEventCustom
  subclassName : Option Text := none
  headers : List EslHeader := []
  body : Option Text := none
  uniqHeaders : Bool := false
  deriving DecidableEq, Repr

namespace EslEvent

/-- The comparison of `esl_event_get_header_ptr` and `esl_event_del_header_val`. -/
def named (name : Text) (hp : EslHeader) : Bool :=
  (hp.hash == 0 || eslCiHash name == hp.hash) && strcaseeq hp.name name

/-- `esl_event_get_header_ptr`, as the position of the header. -/
def getHeaderPtr (name : Text) (event : EslEvent) : Option Nat := event.headers.findIdx? (named name)

/-- `esl_event_get_header_idx`. -/
def getHeaderIdx (name : Text) (idx : Int) (event : EslEvent) : Option Text :=
  match event.headers.find? (named name) with
  | some hp => if idx > -1 then hp.array[idx.toNat]? else some hp.value
  | none => if name = "_body".toList then event.body else none

/-- `esl_event_get_header`. -/
def getHeader (name : Text) (event : EslEvent) : Option Text := event.getHeaderIdx name (-1)

/-- `esl_event_del_header_val`, without its status. -/
def delHeaderVal (name : Text) (val : Text) (event : EslEvent) : EslEvent :=
  { event with headers := event.headers.filter fun hp => !(named name hp && (val = [] || hp.value == val)) }

/-- `esl_event_del_header`. -/
def delHeader (name : Text) (event : EslEvent) : EslEvent := event.delHeaderVal name []

/-- `esl_event_set_body`. -/
def setBody (body : Text) (event : EslEvent) : EslEvent := { event with body := some body }

/-- A new header linked to the event. -/
def link (stack : BitVec 2) (header : EslHeader) (event : EslEvent) : EslEvent :=
  { event with headers := if tests stack .top then header :: event.headers else event.headers ++ [header] }

/-- The part of `esl_event_base_add_header` for a name with an index.  An element that is there is
replaced, and the text of the array stays; behind the array it grows up to the index. -/
def addIndexed (stack : BitVec 2) (name : Text) (index : Int) (data : Text) (event : EslEvent) : EslEvent :=
  if index > -1 ∧ index ≤ 4000 then
    match event.getHeaderPtr name with
    | some at_ =>
      { event with
        headers := event.headers.modify at_ fun header =>
          if index < header.array.length then { header with array := header.array.set index.toNat data }
          else
            let array := header.array ++ List.replicate (index.toNat - header.array.length) [] ++ [data]
            { header with array, value := drawn array } }
    | none =>
      let array := List.replicate index.toNat [] ++ [data]
      let event := if event.uniqHeaders then event.delHeader name else event
      event.link stack { name, value := drawn array, array, hash := eslCiHash name }
  else event

/-- `esl_event_base_add_header`, for values nested at most so deep.  The elements of a value with
`ARRAY::` in it are put one by one: `esl_event_add_array`, which takes them from its eighth character. -/
def addHeaderAt (depth : Nat) (stack : BitVec 2) (headerName data : Text) (event : EslEvent) : EslEvent :=
  let event := if headerName = "_body".toList then event.setBody data else event
  if headerName.contains '[' then
    let name := headerName.takeWhile (· ≠ '[')
    event.addIndexed stack name (toInt32 (atol ((headerName.dropWhile (· ≠ '[')).drop 1))) data
  else
    let pushes := tests stack .push || tests stack .unshift
    match if pushes then event.getHeaderPtr headerName else none with
    | some at_ =>
      -- the bits of `ESL_STACK_TOP` and `ESL_STACK_BOTTOM` go
      let stack := stack &&& 2
      { event with
        headers := event.headers.modify at_ fun header =>
          if tests stack .push || tests stack .unshift then header.put stack data
          else { header with value := data } }
    | none =>
      if data = [] then event.delHeader headerName
      else
        let event := if event.uniqHeaders then event.delHeader headerName else event
        if strstr "ARRAY::".toList data then
          match depth with
          | 0 => event
          | depth + 1 =>
            if data.length < 8 then event
            else
              (eslSeparateString (data.drop 7)).foldl
                (fun event element => addHeaderAt depth EslStack.push.code headerName element event) event
        else
          event.link stack
            { name := headerName, value := data, array := if pushes then [data] else [],
              hash := eslCiHash headerName }

/-- `esl_event_add_header_string`: a value is nested less deep than it is long. -/
def addHeaderString (stack : EslStack) (headerName data : Text) (event : EslEvent) : EslEvent :=
  addHeaderAt data.length stack.code headerName data event

/-- `esl_event_add_array`. -/
def addArray (var val : Text) (event : EslEvent) : EslEvent :=
  if val.length < 8 then event
  else (eslSeparateString (val.drop 7)).foldl (fun event element => event.addHeaderString .push var element) event

/-- `esl_event_create_subclass`; none where it fails. -/
def createSubclass (eventId : Nat) (subclassName : Option Text) : Option EslEvent :=
  if eventId ≠ eslEventClone ∧ eventId ≠ eslEventCustom ∧ subclassName.isSome then none
  else
    let event : EslEvent := {}
    let event :=
      if eventId ≠ eslEventClone then
        { event with eventId }.addHeaderString .bottom "Event-Name".toList ((eslEventName eventId).getD "").toList
      else event
    match subclassName with
    | some name => some ({ event with subclassName := some name }.addHeaderString .bottom "Event-Subclass".toList name)
    | none => some event

/-- `esl_event_create(event, ESL_EVENT_CLONE)`. -/
def clone : EslEvent := {}

/-! ## The text of an event -/

/-- `esl_snprintf(buffer, count, ..)`, which leaves one byte of the buffer unused. -/
def eslSnprintf (count : Nat) (text : Text) : Text := text.take (count - 2)

/-- `char *buf` and `encode_len` of `esl_event_serialize`, with the size of `buf`. -/
structure Serializing where
  buf : Text
  dlen : Nat
  encodeLen : Nat

def blocksize : Nat := 512

/-- The memory that `buf` needs for so many bytes more. -/
def Serializing.room (llen : Nat) (serializing : Serializing) : Serializing :=
  if serializing.buf.length + llen > serializing.dlen then
    { serializing with dlen := serializing.dlen + (blocksize + (serializing.buf.length + llen)) }
  else serializing

/-- `esl_snprintf(buf + len, dlen - len, ..)`. -/
def Serializing.print (text : Text) (serializing : Serializing) : Serializing :=
  { serializing with
    buf := serializing.buf ++ eslSnprintf (serializing.dlen - serializing.buf.length) text }

/-- The loop of `esl_event_serialize`. -/
def serializeHeader (encode : Bool) (serializing : Serializing) (hp : EslHeader) : Except EslFault Serializing := do
  let newLen :=
    if hp.array = [] then hp.value.length * 3 + 1 else (hp.array.map fun element => element.length * 3 + 1).sum
  let serializing := { serializing with encodeLen := max serializing.encodeLen newLen }
  let encodeBuf ←
    if encode then eslUrlEncode hp.value serializing.encodeLen
    else pure (eslSnprintf serializing.encodeLen hp.value)
  let serializing := serializing.room (hp.name.length + encodeBuf.length + 8)
  pure (serializing.print
    (hp.name ++ ": ".toList ++ (if encodeBuf = [] then "_undef_".toList else encodeBuf) ++ "\n".toList))

/-- `esl_event_serialize`. -/
def serialize (encode : Bool) (event : EslEvent) : Except EslFault Text := do
  let serializing ← event.headers.foldlM (serializeHeader encode) { buf := [], dlen := blocksize * 2, encodeLen := 1536 }
  match event.body with
  | some body =>
    let serializing := serializing.room (if body = [] then 5 else body.length + 25)
    pure (serializing.print
      (if body = [] then "\n".toList
       else "Content-Length: ".toList ++ (toString body.length).toList ++ "\n\n".toList ++ body)).buf
  | none => pure (serializing.print "\n".toList).buf

end EslEvent

end CallCenter.Model
