import CallCenter.Verified.EslSerialization

/-!
# Packets of headers

A packet whose lines are headers is taken off the stream where it ends, and is read as the event of these
headers.
-/

namespace CallCenter.Verified.EslPackets

open CallCenter.Foundation (Text)
open CallCenter.Foundation.Numerals
open CallCenter.Model CallCenter.Model.EslEvent
open CallCenter.Verified.EslEvents CallCenter.Verified.EslReceiving CallCenter.Verified.EslSerialization
open CallCenter.Verified.EslTexts CallCenter.Verified.PacketBuffer

/-! ## The lines of a packet -/

/-- A header that can stand in a packet: a carriage return at its front would be taken for a line end. -/
structure Packable (hp : EslHeader) : Prop extends Sendable hp where
  front : hp.name.head? ≠ Option.some '\r'

/-- The characters of a line in front of its end. -/
def content (hp : EslHeader) : Text := hp.name ++ ':' :: ' ' :: encoded hp.value

theorem line_eq (hp : EslHeader) : line hp = content hp ++ ['\n'] := by
  rw [line, content, List.append_assoc]
  rfl

theorem content_plain {hp : EslHeader} (sendable : Sendable hp) : ∀ c ∈ content hp, c ≠ '\n' ∧ c ≠ '\x00' := by
  intro c member
  rw [content] at member
  rcases List.mem_append.mp member with inName | inValue
  · exact (sendable.name c inName).2
  · rw [List.mem_cons, List.mem_cons] at inValue
    rcases inValue with rfl | rfl | inValue
    · decide
    · decide
    · constructor
      · rintro rfl
        exact not_mem_encoded sendable.ascii (by decide) (by decide) inValue
      · rintro rfl
        exact not_mem_encoded sendable.ascii (by decide) (by decide) inValue

/-- A line does not start as one ends. -/
theorem content_cons {hp : EslHeader} (packable : Packable hp) :
    ∃ c rest, content hp = c :: rest ∧ c ≠ '\n' ∧ c ≠ '\r' := by
  rw [content]
  cases isName : hp.name with
  | nil => exact ⟨':', _, rfl, by decide, by decide⟩
  | cons c rest =>
    refine ⟨c, _, rfl, (packable.name c (by rw [isName]; exact List.mem_cons_self)).2.1, ?_⟩
    rintro rfl
    exact packable.front (by rw [isName]; rfl)

theorem packetIn_front {front : Text} (plain : ∀ c ∈ front, c ≠ '\n' ∧ c ≠ '\x00') (rest : Text) :
    packetIn (front ++ rest) = (packetIn rest).map (· + front.length) := by
  induction front with
  | nil => exact Option.map_id'.symm
  | cons c front inductionHypothesis =>
    rw [List.forall_mem_cons] at plain
    rw [List.cons_append, packetIn_pass plain.1.2 (fun _ isEnd _ => plain.1.1 isEnd)
      (fun _ isEnd _ => plain.1.1 isEnd), inductionHypothesis plain.2, Option.map_map]
    rfl

/-- A packet of headers ends behind the empty line. -/
theorem packetIn_lines {headers : List EslHeader} (present : headers ≠ []) (packable : ∀ hp ∈ headers, Packable hp)
    (rest : Text) :
    packetIn (headers.flatMap line ++ '\n' :: rest) = some ((headers.flatMap line).length + 1) := by
  induction headers with
  | nil => exact absurd rfl present
  | cons hp headers inductionHypothesis =>
    rw [List.forall_mem_cons] at packable
    rw [List.flatMap_cons, List.append_assoc, line_eq, List.append_assoc, List.singleton_append,
      packetIn_front (content_plain packable.1.toSendable)]
    cases headers with
    | nil =>
      rw [List.flatMap_nil, List.nil_append, List.append_nil, packetIn, Option.map_some, List.length_append,
        List.length_singleton]
      exact congrArg some (by omega)
    | cons next headers =>
      have goesOn := inductionHypothesis (List.cons_ne_nil _ _) packable.2
      obtain ⟨c, behind, isNext, noEnd, noReturn⟩ := content_cons (packable.2 next List.mem_cons_self)
      have starts : (next :: headers).flatMap line ++ '\n' :: rest =
          c :: (behind ++ '\n' :: (headers.flatMap line ++ '\n' :: rest)) := by
        simp only [List.flatMap_cons, line_eq, isNext, List.cons_append, List.append_assoc, List.nil_append]
      rw [starts] at goesOn ⊢
      rw [packetIn_pass (by decide) (fun _ _ same => noEnd (List.cons.inj same).1)
        (fun _ _ same => noReturn (List.cons.inj same).1), goesOn, Option.map_some, Option.map_some, List.length_append,
        List.length_append, List.length_singleton]
      exact congrArg some (by omega)

theorem dropWhile_cons_append {stops : Char → Bool} {text : Text} {c : Char} (first : text.head? = some c)
    (goesOn : stops c = false) (rest : Text) : (text ++ rest).dropWhile stops = text ++ rest := by
  cases text with
  | nil => cases first
  | cons d text =>
    cases first
    rw [List.cons_append, List.dropWhile_cons, goesOn]
    rfl

/-- A header at the front of a packet. -/
theorem splitAt_packet {hp : EslHeader} (sendable : Sendable hp) (rest : Text) :
    splitAt ':' (line hp ++ rest) = some (hp.name, ' ' :: (encoded hp.value ++ '\n' :: rest)) ∧
      splitAt '\n' ((' ' :: (encoded hp.value ++ '\n' :: rest)).dropWhile fun c => c = ' ' ∨ c = '\t') =
        some (encoded hp.value, rest) := by
  constructor
  · have whole : line hp ++ rest = hp.name ++ ':' :: (' ' :: (encoded hp.value ++ '\n' :: rest)) := by
      simp only [line, List.append_assoc, List.cons_append, List.nil_append]
    rw [whole]
    exact splitAt_eq (fun member => (sendable.name _ member).1 rfl) _
  · obtain ⟨c, first⟩ : ∃ c, (encoded hp.value).head? = some c := by
      rw [← Option.isSome_iff_exists, List.isSome_head?]
      exact encoded_ne_nil sendable.some
    have member : c ∈ encoded hp.value := List.mem_of_mem_head? first
    have noBlank : decide (c = ' ' ∨ c = '\t') = false := by
      rw [decide_eq_false_iff_not]
      rintro (rfl | rfl)
      · exact not_mem_encoded sendable.ascii (by decide) (by decide) member
      · exact not_mem_encoded sendable.ascii (by decide) (by decide) member
    rw [List.dropWhile_cons_of_pos (by decide), dropWhile_cons_append first noBlank]
    exact splitAt_eq (not_mem_encoded sendable.ascii (by decide) (by decide)) _

/-- The headers of a packet are added one after the other. -/
theorem parseHeaders_lines {event : EslEvent} (hashed : Hashed event) (many : event.uniqHeaders = false) {lines : Nat}
    {headers : List EslHeader} (few : headers.length ≤ lines) (packable : ∀ hp ∈ headers, Packable hp)
    (follows : (event.headers ++ headers).Pairwise Follows) :
    parseHeaders lines (headers.flatMap line ++ ['\n']) event =
      { event with headers := event.headers ++ headers } := by
  induction headers generalizing event lines with
  | nil =>
    rw [List.append_nil]
    cases lines <;> rfl
  | cons hp headers inductionHypothesis =>
    rw [List.forall_mem_cons] at packable
    obtain ⟨lines, rfl⟩ : ∃ fewer, lines = fewer + 1 := ⟨lines - 1, by rw [List.length_cons] at few; omega⟩
    obtain ⟨isName, isValue⟩ := splitAt_packet packable.1.toSendable (headers.flatMap line ++ ['\n'])
    have followsFirst : ∀ other ∈ event.headers, Follows other hp := fun other member =>
      (List.pairwise_append.mp follows).2.2 other member hp List.mem_cons_self
    have decoded : eslUrlDecode (encoded hp.value) = hp.value :=
      eslUrlDecode_encoded packable.1.ascii packable.1.noZero
    rw [List.flatMap_cons, List.append_assoc, parseHeaders, isName]
    simp only [isValue, decoded, addHeader_sent hashed many packable.1.toSendable followsFirst]
    cases headers with
    | nil => cases lines <;> rfl
    | cons next headers =>
      obtain ⟨c, behind, isNext, noEnd, noReturn⟩ := content_cons (packable.2 next List.mem_cons_self)
      have starts : ((next :: headers).flatMap line).head? = some c := by
        rw [List.flatMap_cons, line_eq, isNext]
        rfl
      have stays : decide (c = '\n' ∨ c = '\r') = false := by
        rw [decide_eq_false_iff_not]
        exact fun either => either.elim noEnd noReturn
      have followsOthers : (event.headers ++ [hp] ++ next :: headers).Pairwise Follows := by
        rwa [List.append_assoc, List.singleton_append]
      have goesOn := @inductionHypothesis { event with headers := event.headers ++ [hp] }
        (extended_hashed hashed packable.1.toSendable) many lines (Nat.le_of_succ_le_succ few) packable.2 followsOthers
      rw [dropWhile_cons_append starts stays, goesOn, List.append_assoc, List.singleton_append]

/-- The first header of a packet's event. -/
def socketName : EslHeader := ⟨"Event-Name".toList, "SOCKET_DATA".toList, [], eslCiHash "Event-Name".toList⟩

/-- The event of a packet. -/
def packetEvent (headers : List EslHeader) : EslEvent :=
  { eventId := eslEventSocketData, headers := socketName :: headers }

theorem parsePacket_lines {headers : List EslHeader} (packable : ∀ hp ∈ headers, Packable hp)
    (follows : (socketName :: headers).Pairwise Follows) :
    parsePacket (headers.flatMap line ++ ['\n']) = packetEvent headers := by
  have created : { EslEvent.clone with eventId := eslEventSocketData }.addHeaderString .bottom "Event-Name".toList
      "SOCKET_DATA".toList = packetEvent [] :=
    addHeaderString_value (by decide) (by decide) rfl (by decide) (by decide)
  have hashed : Hashed (packetEvent []) := by
    intro hp member
    rw [List.mem_singleton.mp member]
    rfl
  have few : headers.length ≤ List.length (headers.flatMap line ++ ['\n']) := by
    calc
      _ ≤ (headers.flatMap line).length := lines_length _
      _ ≤ _ := by
        rw [List.length_append]
        exact Nat.le_add_right _ _
  rw [parsePacket, created]
  exact parseHeaders_lines hashed rfl few packable follows

/-- Headers that make a packet: with the empty line behind them they fit `socket_buf`. -/
structure PacketHeaders (headers : List EslHeader) : Prop where
  present : headers ≠ []
  packable : ∀ hp ∈ headers, Packable hp
  follows : (socketName :: headers).Pairwise Follows
  fits : (headers.flatMap line).length + 1 < socketBufSize

theorem hashed_packet {headers : List EslHeader} (packet : PacketHeaders headers) (body : Option Text) :
    Hashed { packetEvent headers with body } := by
  intro hp member
  rcases List.mem_cons.mp member with rfl | inHeaders
  · rfl
  · exact (packet.packable hp inHeaders).hashed

/-- A packet is taken off the stream, and is the event of its headers. -/
theorem nextPacket_lines {headers : List EslHeader} (packet : PacketHeaders headers) (rest : Text) :
    nextPacket (headers.flatMap line ++ '\n' :: rest) = some (headers.flatMap line ++ ['\n'], rest) ∧
      parsePacket (headers.flatMap line ++ ['\n']) = packetEvent headers := by
  refine ⟨?_, parsePacket_lines packet.packable packet.follows⟩
  have fits := packet.fits
  have whole : headers.flatMap line ++ '\n' :: rest = headers.flatMap line ++ ['\n'] ++ rest := by
    rw [List.append_assoc, List.singleton_append]
  have length : List.length (headers.flatMap line ++ ['\n']) = (headers.flatMap line).length + 1 := by
    rw [List.length_append, List.length_singleton]
  rw [nextPacket, packetIn_lines packet.present packet.packable, Option.map_some, Nat.min_eq_right (by omega), whole,
    ← length, List.take_left, List.drop_left]

/-! ## The packet in front of an event -/

def lengthHeader (length : Nat) : EslHeader :=
  ⟨"Content-Length".toList, digits length, [], eslCiHash "Content-Length".toList⟩

def typeHeader : EslHeader :=
  ⟨"Content-Type".toList, "text/event-plain".toList, [], eslCiHash "Content-Type".toList⟩

/-- The packet in front of an event: how long its text is, and the type. -/
def frameHeaders (length : Nat) : List EslHeader := [lengthHeader length, typeHeader]

theorem atol_digits {n : Nat} (fits : (n : Int) ≤ longMax) : atol (digits n) = n := by
  have least : longMin ≤ (n : Int) := by
    rw [longMin]
    omega
  have same : digits n = (toString (n : Int)).toList := by
    rw [digits, Int.toString_eq_repr, Int.repr_eq_if, if_pos (Int.natCast_nonneg n)]
    rfl
  rw [same, atol_toString least fits]

theorem encoded_plain : encoded "text/event-plain".toList = "text/event-plain".toList := by decide

theorem typeHeader_packable : Packable typeHeader := by
  refine ⟨?_, by decide⟩
  constructor <;> dsimp only [typeHeader]
  · exact forall_mem_of_all (by decide)
  · decide
  · decide
  · exact forall_mem_of_all (by decide)
  · decide
  · decide
  · have length : "text/event-plain".toList.length = 16 := by decide
    rw [encoded_plain, encodeLen, length]
    omega
  · exact .inl ⟨rfl, by decide⟩

theorem lengthHeader_packable {length : Nat} (short : (digits length).length ≤ 7) : Packable (lengthHeader length) := by
  refine ⟨lengthHeader_sendable short, ?_⟩
  dsimp only [lengthHeader]
  decide

theorem line_length (hp : EslHeader) : (line hp).length = hp.name.length + (encoded hp.value).length + 3 := by
  rw [line, List.length_append, List.length_cons, List.length_cons, List.length_append, List.length_singleton]
  omega

theorem frameHeaders_length (length : Nat) :
    ((frameHeaders length).flatMap line).length = 48 + (digits length).length := by
  have lengthName : "Content-Length".toList.length = 14 := by decide
  have typeName : typeHeader.name.length = 12 := by decide
  have typeValue : (encoded typeHeader.value).length = 16 := by decide
  rw [frameHeaders, List.flatMap_cons, List.flatMap_singleton, List.length_append, line_length, line_length, typeName,
    typeValue]
  dsimp only [lengthHeader]
  rw [lengthName, encoded_digits]
  omega

/-- None of the headers is an array or the name of an event. -/
theorem frameHeaders_follow (length : Nat) : (socketName :: frameHeaders length).Pairwise Follows := by
  have plain : ∀ hp ∈ frameHeaders length, hp.array = [] ∧ strcaseeq hp.name "event-name".toList = false := by
    rw [frameHeaders, List.forall_mem_cons, List.forall_mem_singleton]
    dsimp only [lengthHeader, typeHeader]
    decide
  have follows : ∀ other, ∀ hp ∈ frameHeaders length, Follows other hp := by
    intro other hp member either
    obtain ⟨noArray, noName⟩ := plain hp member
    rw [noName] at either
    exact absurd noArray (either.resolve_right nofun)
  refine List.pairwise_cons.mpr ⟨follows _, ?_⟩
  exact List.pairwise_of_forall_mem_list fun other _ hp member => follows other hp member

theorem frameHeaders_packet {length : Nat} (few : length < bufStart) : PacketHeaders (frameHeaders length) := by
  have short : (digits length).length ≤ 7 := by
    rw [digits_eq]
    exact (Nat.length_toDigits_le_iff (by decide) (by decide)).mpr (Nat.lt_trans few (by decide))
  refine ⟨nofun, ?_, frameHeaders_follow length, ?_⟩
  · rw [frameHeaders, List.forall_mem_cons, List.forall_mem_singleton]
    exact ⟨lengthHeader_packable short, typeHeader_packable⟩
  · rw [frameHeaders_length, socketBufSize]
    omega

/-- The headers of the packet in front of an event are found. -/
theorem frame_lookup {length : Nat} (few : length < bufStart) (body : Option Text) :
    { packetEvent (frameHeaders length) with body }.getHeader "content-length".toList = some (digits length) ∧
      { packetEvent (frameHeaders length) with body }.getHeader "content-type".toList =
        some "text/event-plain".toList := by
  have hashed := hashed_packet (frameHeaders_packet few) body
  have lengthFound : header "content-length".toList { packetEvent (frameHeaders length) with body } =
      some (lengthHeader length) := by
    have other : strcaseeq socketName.name "content-length".toList = false := by decide
    have isLength : strcaseeq "Content-Length".toList "content-length".toList = true := by decide
    rw [header, packetEvent, List.find?_cons, other, frameHeaders, List.find?_cons]
    dsimp only [lengthHeader]
    rw [isLength]
  have typeFound : header "content-type".toList { packetEvent (frameHeaders length) with body } = some typeHeader := by
    have other : strcaseeq socketName.name "content-type".toList = false := by decide
    have stillOther : strcaseeq "Content-Length".toList "content-type".toList = false := by decide
    have isType : strcaseeq typeHeader.name "content-type".toList = true := by decide
    rw [header, packetEvent, List.find?_cons, other, frameHeaders, List.find?_cons]
    dsimp only [lengthHeader]
    rw [stillOther, List.find?_cons, isType]
  rw [getHeader_eq hashed, getHeader_eq hashed, byName, byName, lengthFound, typeFound]
  exact ⟨rfl, rfl⟩

end CallCenter.Verified.EslPackets
