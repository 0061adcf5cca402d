import CallCenter.Verified.EslEvents
import CallCenter.Verified.EslReceiving
import CallCenter.Verified.EslTexts

/-!
# Events that are sent and received

The text `esl_event_serialize` writes is parsed to the event it was written from: the headers in their
order, values and arrays, and the body.
-/

namespace CallCenter.Verified.EslSerialization

open CallCenter.Foundation (Text)
open CallCenter.Foundation.Text (cString)
open CallCenter.Foundation.Framing
open CallCenter.Foundation.Numerals (mem_toDigits)
open CallCenter.Model CallCenter.Model.EslEvent
open CallCenter.Verified.EslEvents CallCenter.Verified.EslTexts CallCenter.Verified.EslReceiving

/-! ## Arrays -/

/-- The first element of a name that has no header yet. -/
theorem push_first {event : EslEvent} (hashed : Hashed event) {name data : Text} (absent : header name event = none)
    (noIndex : name.contains '[' = false) (noBody : name ≠ "_body".toList) (many : event.uniqHeaders = false)
    (some : data ≠ []) (plain : strstr "ARRAY::".toList data = false) :
    event.addHeaderString .push name data =
      { event with headers := event.headers ++ [⟨name, data, [data], eslCiHash name⟩] } := by
  have pushes : (tests EslStack.push.code .push || tests EslStack.push.code .unshift) = true := by decide
  have top : tests EslStack.push.code .top = false := by decide
  rw [addHeaderString, addHeaderAt]
  simp only [if_neg noBody, noIndex, Bool.false_eq_true, if_false, pushes, if_true, getHeaderPtr_eq_none hashed absent,
    many, plain, if_neg some, link, top]

theorem modify_last {α : Type*} (front : List α) (last : α) (change : α → α) :
    (front ++ [last]).modify front.length change = front ++ [change last] := by
  induction front with
  | nil => rfl
  | cons first front inductionHypothesis =>
    rw [List.cons_append, List.length_cons, List.modify_succ_cons, inductionHypothesis]
    rfl

/-- The last header is the one of its name. -/
theorem getHeaderPtr_last {event : EslEvent} {front : List EslHeader} {hp : EslHeader}
    (headers : event.headers = front ++ [hp]) (hashed : Hashed event)
    (absent : ∀ other ∈ front, strcaseeq other.name hp.name = false) :
    event.getHeaderPtr hp.name = some front.length := by
  have notBefore : front.findIdx? (named hp.name) = none := by
    rw [List.findIdx?_eq_none_iff]
    intro other member
    rw [named_eq (hashed other (by rw [headers]; exact List.mem_append_left _ member)), absent other member]
  have isNamed : named hp.name hp = true := by
    rw [named_eq (hashed hp (by rw [headers]; exact List.mem_append_right _ List.mem_cons_self)), strcaseeq_iff]
  rw [getHeaderPtr, headers, List.findIdx?_append, notBefore, List.findIdx?_cons, isNamed, if_pos rfl, Option.none_or,
    Option.map_some, Nat.zero_add]

/-- A further element goes behind the others. -/
theorem push_again {event : EslEvent} {front : List EslHeader} {hp : EslHeader}
    (headers : event.headers = front ++ [hp]) (hashed : Hashed event)
    (absent : ∀ other ∈ front, strcaseeq other.name hp.name = false) (noIndex : hp.name.contains '[' = false)
    (noBody : hp.name ≠ "_body".toList) (array : hp.array ≠ []) (data : Text) :
    event.addHeaderString .push hp.name data =
      { event with
        headers := front ++ [{ hp with value := drawn (hp.array ++ [data]), array := hp.array ++ [data] }] } := by
  have cut : EslStack.push.code &&& 2 = EslStack.push.code := by decide
  have push : tests EslStack.push.code .push = true := by decide
  rw [addHeaderString, addHeaderAt]
  simp only [if_neg noBody, noIndex, Bool.false_eq_true, if_false, if_true, Bool.true_or,
    getHeaderPtr_last headers hashed absent, cut, headers, modify_last, EslHeader.put, push, if_neg array]

/-- Further elements, one after the other. -/
theorem push_all {event : EslEvent} {front : List EslHeader} {hp : EslHeader}
    (headers : event.headers = front ++ [hp]) (hashed : Hashed event)
    (absent : ∀ other ∈ front, strcaseeq other.name hp.name = false) (noIndex : hp.name.contains '[' = false)
    (noBody : hp.name ≠ "_body".toList) (array : hp.array ≠ []) (value : hp.value = drawn hp.array)
    (elements : List Text) :
    elements.foldl (fun event element => event.addHeaderString .push hp.name element) event =
      { event with
        headers := front ++ [{ hp with value := drawn (hp.array ++ elements), array := hp.array ++ elements }] } := by
  induction elements generalizing event hp with
  | nil =>
    rw [List.foldl_nil, List.append_nil, ← value, ← headers]
  | cons element elements inductionHypothesis =>
    have pushed := push_again headers hashed absent noIndex noBody array element
    have touched := addHeaderString_touches .push hp.name element event hashed
    rw [pushed] at touched
    rw [List.foldl_cons, pushed]
    refine (@inductionHypothesis { event with headers := _ }
      { hp with value := drawn (hp.array ++ [element]), array := hp.array ++ [element] } rfl touched.hashed absent
      noIndex noBody (by simp) rfl).trans ?_
    rw [List.append_assoc, List.singleton_append]

/-- The text of an array puts its elements back. -/
theorem addArray_drawn {event : EslEvent} (hashed : Hashed event) {name first second : Text} {others : List Text}
    (absent : header name event = none) (noIndex : name.contains '[' = false) (noBody : name ≠ "_body".toList)
    (many : event.uniqHeaders = false) (some : first ≠ []) (plain : strstr "ARRAY::".toList first = false)
    (apart : ∀ element ∈ first :: second :: others, marked element = false) :
    event.addArray name (drawn (first :: second :: others)) =
      { event with
        headers := event.headers ++
          [⟨name, drawn (first :: second :: others), first :: second :: others, eslCiHash name⟩] } := by
  have text : drawn (first :: second :: others) = "ARRAY::".toList ++ joined (first :: second :: others) := by
    rw [drawn, if_pos (by simp)]
  have length : 2 ≤ (joined (first :: second :: others)).length := by
    rw [show joined (first :: second :: others) = first ++ '|' :: ':' :: joined (second :: others) from rfl,
      List.length_append, List.length_cons, List.length_cons]
    omega
  have seven : "ARRAY::".toList.length = 7 := by decide
  have pieces : eslSeparateString (joined (first :: second :: others)) = first :: second :: others :=
    (eslSeparateString_joined _).mpr ⟨List.cons_ne_nil _ _, apart⟩
  have rest : (drawn (first :: second :: others)).drop 7 = joined (first :: second :: others) := by
    rw [text, ← seven, List.drop_left]
  have notShort : ¬ (drawn (first :: second :: others)).length < 8 := by
    rw [text, List.length_append, seven]
    omega
  have notNamed : ∀ other ∈ event.headers, strcaseeq other.name name = false := by
    intro other member
    simpa using List.find?_eq_none.mp absent other member
  have touched := addHeaderString_touches .push name first event hashed
  rw [push_first hashed absent noIndex noBody many some plain] at touched
  rw [addArray, if_neg notShort, rest, pieces, List.foldl_cons,
    push_first hashed absent noIndex noBody many some plain]
  exact @push_all { event with headers := _ } event.headers ⟨name, first, [first], eslCiHash name⟩ rfl touched.hashed
    notNamed noIndex noBody (List.cons_ne_nil _ _) rfl (second :: others)

/-! ## What can be sent -/

/-- How large `esl_event_serialize` makes its buffer for the value of a header, at the least. -/
def encodeLen (hp : EslHeader) : Nat :=
  max 1536 (if hp.array = [] then hp.value.length * 3 + 1
    else (hp.array.map fun element => element.length * 3 + 1).sum)

/-- A header that the text of an event can carry. -/
structure Sendable (hp : EslHeader) : Prop where
  name : ∀ c ∈ hp.name, c ≠ ':' ∧ c ≠ '\n' ∧ c ≠ '\x00'
  noIndex : hp.name.contains '[' = false
  noBody : hp.name ≠ "_body".toList
  ascii : ∀ c ∈ hp.value, c.toNat < 128
  noZero : '\x00' ∉ hp.value
  some : hp.value ≠ []
  fits : (encoded hp.value).length + 1 < encodeLen hp
  hashed : hp.hash = eslCiHash hp.name
  shape : (hp.array = [] ∧ strstr "ARRAY::".toList hp.value = false) ∨
    ∃ first second others, hp.array = first :: second :: others ∧ hp.value = drawn hp.array ∧ first ≠ [] ∧
      strstr "ARRAY::".toList first = false ∧ ∀ element ∈ hp.array, marked element = false

/-- What holds of the characters of a fixed text is decided on them. -/
theorem forall_mem_of_all {text : Text} {holds : Char → Prop} [DecidablePred holds]
    (all : text.all (fun c => holds c) = true) : ∀ c ∈ text, holds c := by
  intro c member
  exact of_decide_eq_true (List.all_eq_true.mp all c member)

/-- A header that can stand behind another: an array and the name of the event are the first of their name. -/
def Follows (other hp : EslHeader) : Prop :=
  hp.array ≠ [] ∨ strcaseeq hp.name "event-name".toList = true → strcaseeq other.name hp.name = false

instance : DecidableRel Follows := fun _ _ => inferInstanceAs (Decidable (_ → _))

/-- The type of an event behind headers: the one of the last `Event-Name` that is known. -/
def typeBehind (eventId : Nat) (headers : List EslHeader) : Nat :=
  headers.foldl (fun eventId hp =>
    if strcaseeq hp.name "event-name".toList then (eslNameEvent hp.value).getD eventId else eventId) eventId

/-- An event with further headers. -/
def extended (event : EslEvent) (headers : List EslHeader) : EslEvent :=
  { event with eventId := typeBehind event.eventId headers, headers := event.headers ++ headers }

theorem extended_cons (event : EslEvent) (hp : EslHeader) (headers : List EslHeader) :
    extended (extended event [hp]) headers = extended event (hp :: headers) := by
  simp only [extended, typeBehind, List.foldl_cons, List.foldl_nil, List.append_assoc, List.singleton_append]

theorem extended_hashed {event : EslEvent} (hashed : Hashed event) {hp : EslHeader} (sendable : Sendable hp) :
    Hashed (extended event [hp]) := by
  intro other member
  rcases List.mem_append.mp member with before | last
  · exact hashed other before
  · rw [List.mem_singleton.mp last]
    exact sendable.hashed

theorem isPrefixOf_of_strstr {part text : Text} (absent : strstr part text = false) : part.isPrefixOf text = false := by
  cases text with
  | nil =>
    rw [strstr] at absent
    cases part with
    | nil => cases absent
    | cons c part => rfl
  | cons c rest =>
    rw [strstr, Bool.or_eq_false_iff] at absent
    exact absent.1

/-- A header that was sent is added as it was. -/
theorem addHeader_sent {event : EslEvent} (hashed : Hashed event) (many : event.uniqHeaders = false) {hp : EslHeader}
    (sendable : Sendable hp) (follows : ∀ other ∈ event.headers, Follows other hp) :
    addHeader hp.name hp.value event = { event with headers := event.headers ++ [hp] } := by
  obtain ⟨name, value, array, hash⟩ := hp
  have sameHash : hash = eslCiHash name := sendable.hashed
  subst sameHash
  rcases sendable.shape with ⟨noArray, plain⟩ | ⟨first, second, others, isArray, isDrawn, some, plain, apart⟩
  · dsimp only at noArray plain ⊢
    subst noArray
    rw [addHeader, isPrefixOf_of_strstr plain]
    exact addHeaderString_value sendable.noIndex sendable.noBody many sendable.some plain
  · dsimp only at isArray isDrawn apart follows ⊢
    subst isArray
    subst isDrawn
    have absent : header name event = none := by
      refine List.find?_eq_none.mpr fun other member => ?_
      rw [follows other member (.inl (List.cons_ne_nil _ _))]
      decide
    have front : "ARRAY::".toList.isPrefixOf (drawn (first :: second :: others)) = true := by
      rw [drawn, if_pos (by simp), List.isPrefixOf_iff_prefix]
      exact List.prefix_append _ _
    rw [addHeader, if_pos front]
    exact addArray_drawn hashed absent sendable.noIndex sendable.noBody many some plain apart

/-- So it is in the body of a message, where a header `Event-Name` gives the event its type. -/
theorem addInnerHeader_sent {event : EslEvent} (hashed : Hashed event) (many : event.uniqHeaders = false)
    {hp : EslHeader} (sendable : Sendable hp) (follows : ∀ other ∈ event.headers, Follows other hp) :
    addInnerHeader hp.name hp.value event = extended event [hp] := by
  rw [addInnerHeader, extended]
  by_cases isName : strcaseeq hp.name "event-name".toList = true
  · -- there is no header of the name that would be deleted
    have kept : event.delHeader "event-name".toList = event := by
      have noneDeleted : event.headers.filter (fun other =>
          !(named "event-name".toList other && (decide (([] : Text) = []) || other.value == []))) = event.headers := by
        rw [List.filter_eq_self]
        intro other member
        have apart := follows other member (.inr isName)
        have notNamed : strcaseeq other.name "event-name".toList = false := by
          refine Bool.eq_false_iff.mpr fun isOther => ?_
          rw [strcaseeq_trans isOther (strcaseeq_symm isName)] at apart
          cases apart
        rw [named_eq (hashed other member), notNamed]
        rfl
      rw [delHeader, delHeaderVal, noneDeleted]
    have typed : typeBehind event.eventId [hp] = (eslNameEvent hp.value).getD event.eventId := if_pos isName
    simp only [if_pos isName, kept, typed]
    exact @addHeader_sent { event with eventId := (eslNameEvent hp.value).getD event.eventId } hashed many hp sendable
      follows
  · have typed : typeBehind event.eventId [hp] = event.eventId := if_neg isName
    simp only [if_neg isName, typed]
    exact addHeader_sent hashed many sendable follows

/-! ## Writing -/

/-- The line of a header. -/
def line (hp : EslHeader) : Text := hp.name ++ ':' :: ' ' :: (encoded hp.value ++ ['\n'])

theorem encoded_ne_nil {value : Text} (present : value ≠ []) : encoded value ≠ [] := by
  cases value with
  | nil => exact absurd rfl present
  | cons c value =>
    rw [encoded_cons, encodedChar]
    split <;> exact List.cons_ne_nil _ _

/-- The buffers have room for what is written next. -/
structure Spacious (serializing : Serializing) : Prop where
  room : serializing.buf.length + 3 ≤ serializing.dlen
  encode : 1536 ≤ serializing.encodeLen

theorem room_dlen (llen : Nat) (serializing : Serializing) :
    serializing.buf.length + llen ≤ (serializing.room llen).dlen ∧
      (serializing.room llen).buf = serializing.buf ∧
      (serializing.room llen).encodeLen = serializing.encodeLen := by
  rw [Serializing.room]
  split
  · refine ⟨?_, rfl, rfl⟩
    dsimp only
    omega
  · exact ⟨by omega, rfl, rfl⟩

theorem print_eq {serializing : Serializing} {text : Text}
    (room : serializing.buf.length + text.length + 2 ≤ serializing.dlen) :
    serializing.print text = { serializing with buf := serializing.buf ++ text } := by
  rw [Serializing.print, eslSnprintf, List.take_of_length_le (by omega)]

theorem serializeHeader_eq {serializing : Serializing} (spacious : Spacious serializing) {hp : EslHeader}
    (sendable : Sendable hp) :
    ∃ after, serializeHeader true serializing hp = .ok after ∧ Spacious after ∧
      after.buf = serializing.buf ++ line hp := by
  obtain ⟨buf, dlen, encodeBefore⟩ := serializing
  have encode : 1536 ≤ encodeBefore := spacious.encode
  have fits := sendable.fits
  have isEncoded : eslUrlEncode hp.value (max encodeBefore (if hp.array = [] then hp.value.length * 3 + 1
      else (hp.array.map fun element => element.length * 3 + 1).sum)) = .ok (encoded hp.value) := by
    rw [encodeLen] at fits
    exact (decode_encode sendable.noZero (by omega)).2.2 sendable.ascii (by omega)
  have text : hp.name ++ ": ".toList ++ encoded hp.value ++ "\n".toList = line hp := by
    rw [line, List.append_assoc, List.append_assoc]
    rfl
  have length : (line hp).length = hp.name.length + (encoded hp.value).length + 3 := by
    rw [line, List.length_append, List.length_cons, List.length_cons, List.length_append, List.length_singleton]
    omega
  obtain ⟨encodeAfter, isAfter⟩ : ∃ encodeAfter, encodeAfter = max encodeBefore
      (if hp.array = [] then hp.value.length * 3 + 1
        else (hp.array.map fun element => element.length * 3 + 1).sum) := ⟨_, rfl⟩
  rw [← isAfter] at isEncoded
  have rooms := room_dlen (hp.name.length + (encoded hp.value).length + 8) ⟨buf, dlen, encodeAfter⟩
  obtain ⟨roomy, isRoomy⟩ : ∃ roomy, roomy =
    Serializing.room (hp.name.length + (encoded hp.value).length + 8) ⟨buf, dlen, encodeAfter⟩ := ⟨_, rfl⟩
  rw [← isRoomy] at rooms
  obtain ⟨enough, sameBuf, sameLen⟩ := rooms
  dsimp only at enough sameBuf sameLen
  refine ⟨{ roomy with buf := roomy.buf ++ line hp }, ?_, ⟨?_, ?_⟩, ?_⟩
  · simp only [serializeHeader, if_true, bind, Except.bind, pure, Except.pure, ← isAfter, isEncoded,
      if_neg (encoded_ne_nil sendable.some), text, ← isRoomy]
    rw [print_eq (by rw [sameBuf, length]; omega)]
  · dsimp only
    rw [sameBuf, List.length_append, length]
    omega
  · dsimp only
    omega
  · dsimp only
    rw [sameBuf]

theorem serializeHeaders_eq {serializing : Serializing} (spacious : Spacious serializing) {headers : List EslHeader}
    (sendable : ∀ hp ∈ headers, Sendable hp) :
    ∃ after, headers.foldlM (serializeHeader true) serializing = .ok after ∧ Spacious after ∧
      after.buf = serializing.buf ++ headers.flatMap line := by
  induction headers generalizing serializing with
  | nil => exact ⟨serializing, rfl, spacious, (List.append_nil _).symm⟩
  | cons hp headers inductionHypothesis =>
    rw [List.forall_mem_cons] at sendable
    obtain ⟨middle, first, spaciousMiddle, written⟩ := serializeHeader_eq spacious sendable.1
    obtain ⟨after, others, spaciousAfter, writtenAfter⟩ := inductionHypothesis spaciousMiddle sendable.2
    refine ⟨after, ?_, spaciousAfter, ?_⟩
    · rw [List.foldlM_cons, first]
      exact others
    · rw [writtenAfter, written, List.append_assoc]
      rfl

/-- The digits of a number. -/
def digits (n : Nat) : Text := (toString n).toList

/-- The header a body is announced with. -/
def announced : Option Text → List EslHeader
  | none => []
  | some body => [⟨"Content-Length".toList, digits body.length, [], eslCiHash "Content-Length".toList⟩]

/-- An event that can be sent. -/
structure SendableEvent (event : EslEvent) : Prop where
  headers : ∀ hp ∈ event.headers, Sendable hp
  follows : event.headers.Pairwise Follows
  present : event.headers ≠ []
  noLength : ∀ hp ∈ event.headers, strcaseeq hp.name "content-length".toList = false
  body : ∀ body, event.body = some body → body ≠ [] ∧ '\x00' ∉ body ∧ body.length < 100000

theorem digits_eq (n : Nat) : digits n = Nat.toDigits 10 n := by
  rw [digits, show toString n = n.repr from rfl, Nat.toList_repr]

theorem digits_length {n : Nat} (few : n < 100000) : (digits n).length ≤ 5 := by
  rw [digits_eq]
  exact (Nat.length_toDigits_le_iff (by decide) (by decide)).mpr few

theorem digits_ne_nil (n : Nat) : digits n ≠ [] := by
  rw [digits_eq]
  exact Nat.toDigits_ne_nil

/-- A digit needs no escape, and is neither the first letter of `ARRAY::` nor a zero byte. -/
theorem digit_plain {n : Nat} {c : Char} (member : c ∈ digits n) :
    escaped c = false ∧ c ≠ 'A' ∧ c ≠ '\x00' ∧ c.toNat < 128 := by
  rw [digits_eq] at member
  obtain ⟨digit, small, same⟩ := mem_toDigits (by decide) member
  have all : ∀ m : Fin 10, escaped (Nat.digitChar m) = false ∧ Nat.digitChar m ≠ 'A' ∧ Nat.digitChar m ≠ '\x00' ∧
      (Nat.digitChar m).toNat < 128 := by decide
  rw [same]
  exact all ⟨digit, small⟩

theorem encoded_digits (n : Nat) : encoded (digits n) = digits n := by
  have safe : ∀ text : Text, (∀ c ∈ text, escaped c = false) → encoded text = text := by
    intro text all
    induction text with
    | nil => rfl
    | cons c text inductionHypothesis =>
      rw [List.forall_mem_cons] at all
      rw [encoded_cons, inductionHypothesis all.2, encodedChar, all.1]
      rfl
  exact safe _ fun c member => (digit_plain member).1

theorem serialize_eq {event : EslEvent} (sendable : SendableEvent event) :
    event.serialize true =
      .ok ((event.headers ++ announced event.body).flatMap line ++ '\n' :: event.body.getD []) := by
  have initially : Spacious ⟨[], blocksize * 2, 1536⟩ := ⟨by decide, by decide⟩
  obtain ⟨after, written, spacious, isBuf⟩ := serializeHeaders_eq initially sendable.headers
  have room := spacious.room
  rw [List.nil_append] at isBuf
  rw [serialize, written, List.flatMap_append, ← isBuf]
  simp only [bind, Except.bind, pure, Except.pure]
  cases isBody : event.body with
  | none =>
    have one : "\n".toList.length = 1 := by decide
    have last : after.print "\n".toList = { after with buf := after.buf ++ "\n".toList } :=
      print_eq (by rw [one]; omega)
    dsimp only
    rw [last, announced, List.flatMap_nil, List.append_nil]
    rfl
  | some body =>
    obtain ⟨some, -, few⟩ := sendable.body body isBody
    obtain ⟨enough, sameBuf, -⟩ := room_dlen (body.length + 25) after
    have short := digits_length few
    have text : "Content-Length: ".toList ++ (toString body.length).toList ++ "\n\n".toList ++ body =
        (announced (.some body)).flatMap line ++ '\n' :: body := by
      rw [announced, List.flatMap_cons, List.flatMap_nil, List.append_nil, line, encoded_digits, digits]
      have name : "Content-Length: ".toList = "Content-Length".toList ++ [':', ' '] := by decide
      have ends : "\n\n".toList = ['\n', '\n'] := by decide
      simp only [name, ends, List.append_assoc, List.cons_append, List.nil_append]
    have length : List.length ((announced (.some body)).flatMap line ++ '\n' :: body) =
        18 + (digits body.length).length + body.length := by
      have name : "Content-Length: ".toList.length = 16 := by decide
      have ends : "\n\n".toList.length = 2 := by decide
      rw [← text, List.length_append, List.length_append, List.length_append, name, ends, digits]
      omega
    dsimp only
    rw [if_neg some, if_neg some, text, print_eq (by rw [sameBuf, length]; omega), sameBuf, List.append_assoc]
    rfl

/-! ## Reading -/

theorem splitAt_eq {c : Char} {front : Text} (absent : c ∉ front) (behind : Text) :
    splitAt c (front ++ c :: behind) = .some (front, behind) := by
  have other : ∀ d ∈ front, decide (d ≠ c) = true := by
    intro d member
    rw [decide_eq_true_iff]
    rintro rfl
    exact absent member
  have stops : decide (c ≠ c) = false := by simp
  rw [splitAt, List.dropWhile_append_of_pos other, List.dropWhile_cons, stops, List.takeWhile_append_of_pos other,
    List.takeWhile_cons, stops]
  simp

theorem splitAt_line {hp : EslHeader} (sendable : Sendable hp) (behind : Text) :
    splitAt '\n' (line hp ++ behind) = .some (hp.name ++ ':' :: ' ' :: encoded hp.value, behind) ∧
      splitAt ':' (hp.name ++ ':' :: ' ' :: encoded hp.value) = .some (hp.name, ' ' :: encoded hp.value) := by
  constructor
  · have whole : line hp ++ behind = (hp.name ++ ':' :: ' ' :: encoded hp.value) ++ '\n' :: behind := by
      simp only [line, List.append_assoc, List.cons_append, List.nil_append]
    rw [whole]
    refine splitAt_eq (fun member => ?_) behind
    rcases List.mem_append.mp member with inName | inValue
    · exact (sendable.name _ inName).2.1 rfl
    · simp only [List.mem_cons, Char.reduceEq, false_or] at inValue
      exact not_mem_encoded sendable.ascii (by decide) (by decide) inValue
  · exact splitAt_eq (fun member => (sendable.name _ member).1 rfl) _

/-- The value behind the blank is decoded to the value that was sent. -/
theorem decoded_line {hp : EslHeader} (sendable : Sendable hp) :
    eslUrlDecode ((' ' :: encoded hp.value).dropWhile (· = ' ')) = hp.value := by
  have noBlank : (encoded hp.value).dropWhile (· = ' ') = encoded hp.value := by
    rw [List.dropWhile_eq_self_iff]
    intro some blank
    have isBlank : (encoded hp.value).get ⟨0, some⟩ = ' ' := of_decide_eq_true blank
    exact not_mem_encoded sendable.ascii (by decide) (by decide) (isBlank ▸ List.get_mem _ _)
  rw [List.dropWhile_cons_of_pos (by decide), noBlank, eslUrlDecode_encoded sendable.ascii sendable.noZero]

/-- A line does not start with a line end. -/
theorem line_cons {hp : EslHeader} (sendable : Sendable hp) : ∃ c rest, line hp = c :: rest ∧ c ≠ '\n' := by
  rw [line]
  cases isName : hp.name with
  | nil => exact ⟨':', _, rfl, by decide⟩
  | cons c rest => exact ⟨c, _, rfl, (sendable.name c (by rw [isName]; exact List.mem_cons_self)).2.1⟩

/-- The lines of headers, up to the empty line behind them. -/
theorem parseLines_sent {event : EslEvent} (hashed : Hashed event) (many : event.uniqHeaders = false) {lines : Nat}
    {headers : List EslHeader} (few : headers.length ≤ lines) (present : headers ≠ [])
    (sendable : ∀ hp ∈ headers, Sendable hp)
    (follows : (event.headers ++ headers).Pairwise Follows) (rest : Text) :
    parseLines lines (headers.flatMap line ++ '\n' :: rest) event =
      (extended event headers, rest) := by
  induction headers generalizing event lines with
  | nil => exact absurd rfl present
  | cons hp headers inductionHypothesis =>
    rw [List.forall_mem_cons] at sendable
    obtain ⟨lines, rfl⟩ : ∃ fewer, lines = fewer + 1 := ⟨lines - 1, by rw [List.length_cons] at few; omega⟩
    obtain ⟨isLine, isName⟩ := splitAt_line sendable.1 (headers.flatMap line ++ '\n' :: rest)
    have followsFirst : ∀ other ∈ event.headers, Follows other hp := fun other member =>
      (List.pairwise_append.mp follows).2.2 other member hp List.mem_cons_self
    have added := addInnerHeader_sent hashed many sendable.1 followsFirst
    rw [List.flatMap_cons, List.append_assoc, parseLines, isLine]
    simp only [isName, decoded_line sendable.1, added]
    cases headers with
    | nil => rfl
    | cons next headers =>
      have followsOthers : ((extended event [hp]).headers ++ next :: headers).Pairwise Follows := by
        rwa [extended, List.append_assoc, List.singleton_append]
      have goesOn := inductionHypothesis (extended_hashed hashed sendable.1) many (Nat.le_of_succ_le_succ few)
        (List.cons_ne_nil _ _) sendable.2 followsOthers
      obtain ⟨c, behind, isNext, noEnd⟩ := line_cons (sendable.2 next List.mem_cons_self)
      rw [List.flatMap_cons, List.append_assoc, isNext, List.cons_append, extended_cons] at goesOn
      rw [List.flatMap_cons, List.append_assoc, isNext, List.cons_append]
      split
      · rename_i same
        exact absurd (List.cons.inj same).1 noEnd
      · exact goesOn

/-! ## Sending and receiving -/

theorem not_mem_line {hp : EslHeader} (sendable : Sendable hp) : '\x00' ∉ line hp := by
  rw [line]
  intro member
  rcases List.mem_append.mp member with inName | inValue
  · exact (sendable.name _ inName).2.2 rfl
  · simp only [List.mem_cons, Char.reduceEq, false_or, List.mem_append, List.not_mem_nil, or_false] at inValue
    exact not_mem_encoded sendable.ascii (by decide) (by decide) inValue

theorem lines_length (headers : List EslHeader) : headers.length ≤ (headers.flatMap line).length := by
  induction headers with
  | nil => exact Nat.le_refl 0
  | cons hp headers inductionHypothesis =>
    rw [List.flatMap_cons, List.length_append, List.length_cons, line, List.length_append, List.length_cons]
    omega

theorem strstr_absent {c : Char} {text : Text} (absent : c ∉ text) (part : Text) : strstr (c :: part) text = false := by
  induction text with
  | nil => rfl
  | cons d text inductionHypothesis =>
    rw [List.mem_cons, not_or] at absent
    have first : (c :: part).isPrefixOf (d :: text) = false := by
      rw [List.isPrefixOf, Bool.and_eq_false_iff]
      exact .inl (by simpa using absent.1)
    rw [strstr, first, inductionHypothesis absent.2, Bool.or_false]

theorem lengthHeader_sendable {n : Nat} (short : (digits n).length ≤ 7) :
    Sendable ⟨"Content-Length".toList, digits n, [], eslCiHash "Content-Length".toList⟩ := by
  constructor <;> dsimp only
  · exact forall_mem_of_all (by decide)
  · decide
  · decide
  · exact fun c member => (digit_plain member).2.2.2
  · exact fun member => (digit_plain member).2.2.1 rfl
  · exact digits_ne_nil n
  · rw [encoded_digits, encodeLen]
    omega
  · exact .inl ⟨rfl, strstr_absent (fun member => (digit_plain member).2.1 rfl) _⟩

theorem announced_sendable {event : EslEvent} (sendable : SendableEvent event) :
    ∀ hp ∈ announced event.body, Sendable hp := by
  cases isBody : event.body with
  | none => nofun
  | some body =>
    have short := digits_length (sendable.body body isBody).2.2
    intro hp member
    rw [announced, List.mem_singleton] at member
    subst member
    exact lengthHeader_sendable (by omega)

/-- The length of the body is no array and no name of an event. -/
theorem announced_follows {event : EslEvent} (sendable : SendableEvent event) :
    (event.headers ++ announced event.body).Pairwise Follows := by
  rw [List.pairwise_append]
  refine ⟨sendable.follows, ?_, fun other _ hp member => ?_⟩
  · cases event.body with
    | none => exact .nil
    | some body => exact List.pairwise_singleton _ _
  · cases isBody : event.body with
    | none =>
      rw [isBody] at member
      cases member
    | some body =>
      rw [isBody, announced, List.mem_singleton] at member
      subst member
      have notName : strcaseeq "Content-Length".toList "event-name".toList = false := by decide
      rintro (isArray | isName)
      · exact absurd rfl isArray
      · rw [notName] at isName
        cases isName

theorem announced_typeBehind (eventId : Nat) (body : Option Text) : typeBehind eventId (announced body) = eventId := by
  cases body with
  | none => rfl
  | some body =>
    have notName : strcaseeq "Content-Length".toList "event-name".toList = false := by decide
    rw [announced, typeBehind, List.foldl_cons, notName]
    rfl

/-- A header of the length is found where there is a body. -/
theorem announced_length {event : EslEvent} (sendable : SendableEvent event) :
    (header "content-length".toList (extended EslEvent.clone (event.headers ++ announced event.body))).isSome =
      event.body.isSome := by
  have notBefore : event.headers.find? (fun hp => strcaseeq hp.name "content-length".toList) = none := by
    rw [List.find?_eq_none]
    intro hp member
    rw [sendable.noLength hp member]
    decide
  rw [header, show (extended EslEvent.clone (event.headers ++ announced event.body)).headers =
    event.headers ++ announced event.body from rfl, List.find?_append, notBefore, Option.none_or]
  cases event.body with
  | none => rfl
  | some body =>
    have same : strcaseeq "Content-Length".toList "content-length".toList = true := by decide
    rw [announced, List.find?_cons, same]
    rfl

/-- The event that was sent is the one that is received: its headers, values and arrays in their order,
the body, and a header of its length. -/
theorem parsePlain_serialize {event : EslEvent} (sendable : SendableEvent event) :
    ∃ text, event.serialize true = .ok text ∧
      parsePlain text =
        { eventId := typeBehind eslEventCustom event.headers
          headers := event.headers ++ announced event.body
          body := event.body } := by
  refine ⟨_, serialize_eq sendable, ?_⟩
  have sent : ∀ hp ∈ event.headers ++ announced event.body, Sendable hp :=
    List.forall_mem_append.mpr ⟨sendable.headers, announced_sendable sendable⟩
  have present : event.headers ++ announced event.body ≠ [] := List.append_ne_nil_of_left_ne_nil sendable.present _
  have noZero : '\x00' ∉ (event.headers ++ announced event.body).flatMap line ++ '\n' :: event.body.getD [] := by
    intro member
    rcases List.mem_append.mp member with inLines | behind
    · obtain ⟨hp, isHeader, inLine⟩ := List.mem_flatMap.mp inLines
      exact not_mem_line (sent hp isHeader) inLine
    · cases isBody : event.body with
      | none =>
        rw [isBody] at behind
        simp at behind
      | some body =>
        rw [isBody, Option.getD_some, List.mem_cons] at behind
        exact (sendable.body body isBody).2.1 (behind.resolve_left (by decide))
  have few : (event.headers ++ announced event.body).length ≤
      List.length ((event.headers ++ announced event.body).flatMap line ++ '\n' :: event.body.getD []) := by
    calc
      _ ≤ ((event.headers ++ announced event.body).flatMap line).length := lines_length _
      _ ≤ _ := by
        rw [List.length_append]
        exact Nat.le_add_right _ _
  have parsed := @parseLines_sent EslEvent.clone (fun _ member => nomatch member) rfl _ _ few present sent
    (announced_follows sendable) (event.body.getD [])
  have hashed : Hashed (extended EslEvent.clone (event.headers ++ announced event.body)) :=
    fun hp member => (sent hp member).hashed
  have typed : typeBehind eslEventCustom (event.headers ++ announced event.body) =
      typeBehind eslEventCustom event.headers := by
    rw [typeBehind, List.foldl_append]
    exact announced_typeBehind _ _
  have found := announced_length sendable
  rw [parsePlain, cString_eq noZero, parsed]
  dsimp only
  rw [getHeader_eq hashed, byName]
  cases isBody : event.body with
  | none =>
    rw [isBody, Option.isSome_none, Option.isSome_eq_false_iff, Option.isNone_iff_eq_none] at found
    rw [isBody] at typed
    have other : "content-length".toList ≠ "_body".toList := by decide
    rw [found, ← typed]
    dsimp only
    rw [if_neg other]
    rfl
  | some body =>
    rw [isBody] at found typed
    obtain ⟨hp, isFound⟩ := Option.isSome_iff_exists.mp found
    rw [isFound, ← typed]
    rfl

/-- An event with an array and a body. -/
def heartbeat : EslEvent where
  eventId := 50
  headers :=
    [⟨"Event-Name".toList, "HEARTBEAT".toList, [], eslCiHash "Event-Name".toList⟩,
     ⟨"Session-Peaks".toList, drawn ["a b".toList, "c".toList], ["a b".toList, "c".toList],
       eslCiHash "Session-Peaks".toList⟩]
  body := some "100%".toList

theorem heartbeat_sendable : SendableEvent heartbeat where
  headers := by
    intro hp member
    rw [heartbeat, List.mem_cons, List.mem_singleton] at member
    rcases member with rfl | rfl
    · exact ⟨forall_mem_of_all (by decide), by decide, by decide, forall_mem_of_all (by decide), by decide, by decide,
        by decide, rfl, .inl ⟨rfl, by decide⟩⟩
    · exact ⟨forall_mem_of_all (by decide), by decide, by decide, forall_mem_of_all (by decide), by decide, by decide,
        by decide, rfl, .inr ⟨_, _, _, rfl, rfl, by decide, by decide, by decide⟩⟩
  follows := by decide
  present := by decide
  noLength := by decide
  body := by
    rintro _ ⟨⟩
    decide

theorem parsePlain_serialize_heartbeat :
    ∃ text, heartbeat.serialize true = .ok text ∧
      parsePlain text =
        { eventId := typeBehind eslEventCustom heartbeat.headers
          headers := heartbeat.headers ++ announced heartbeat.body
          body := heartbeat.body } :=
  parsePlain_serialize heartbeat_sendable

end CallCenter.Verified.EslSerialization
