import CallCenter.Verified.Restoration

/-!
# Working libraries

`workingLibraries` is jsoncpp on objects of ints, bools and strings, and sqlite on the statements
of `SqlitePersist` when the texts in them hold no quote.  The properties that results about the
copies on disk ask of the libraries are proved of it here, so concrete runs can use it.
-/

namespace CallCenter.Verified

open CallCenter.Foundation CallCenter.Model

/-- What follows a word at the start of a text. -/
def after? (word text : List Char) : Option (List Char) :=
  if word.isPrefixOf text then some (text.drop word.length) else none

theorem after?_append (word rest : List Char) : after? word (word ++ rest) = some rest := by
  simp [after?]

/-! ## Strings and numbers -/

/-- The inside of a JSON string. -/
def escape (text : List Char) : List Char :=
  text.flatMap fun c => if c = '\x22' ∨ c = '\x5c' then ['\x5c', c] else [c]

/-- Reading up to the closing quote. -/
def readText : List Char → Option (List Char × List Char)
  | [] => none
  | c :: rest =>
    if c = '\x22' then some ([], rest)
    else if c = '\x5c' then
      match rest with
      | [] => none
      | d :: rest => (readText rest).map fun (text, rest) => (d :: text, rest)
    else (readText rest).map fun (text, rest) => (c :: text, rest)

theorem readText_escape (text rest : List Char) :
    readText (escape text ++ '\x22' :: rest) = some (text, rest) := by
  induction text with
  | nil =>
    rw [readText.eq_def]
    simp [escape]
  | cons c text inductionHypothesis =>
    have split : escape (c :: text) = (if c = '\x22' ∨ c = '\x5c' then ['\x5c', c] else [c]) ++
        escape text := rfl
    rw [split]
    by_cases special : c = '\x22' ∨ c = '\x5c'
    · rw [if_pos special, readText.eq_def]
      simp [inductionHypothesis]
    · obtain ⟨noQuote, noBackslash⟩ := not_or.mp special
      rw [if_neg special, readText.eq_def]
      simp [noQuote, noBackslash, inductionHypothesis]

/-- The text goes on with something that is no digit. -/
def EndsNumber (rest : List Char) : Prop := ∀ c ∈ rest.head?, c.isDigit = false

theorem digits_append {digits rest : List Char} (all : ∀ c ∈ digits, c.isDigit = true)
    (ends : EndsNumber rest) :
    (digits ++ rest).takeWhile Char.isDigit = digits ∧ (digits ++ rest).dropWhile Char.isDigit = rest := by
  rw [List.takeWhile_append_of_pos all, List.dropWhile_append_of_pos all]
  cases rest with
  | nil => simp
  | cons c rest =>
    have noDigit := ends c (by simp)
    simp [noDigit]

/-! ## Values -/

def printValue : Json → List Char
  | .int value => (toString value).toList
  | .bool value => if value then "true".toList else "false".toList
  | .string value => '\x22' :: (escape value.toList ++ ['\x22'])
  | _ => "null".toList

def readNumber (text : List Char) : Nat × List Char :=
  (Nat.ofDigitChars 10 (text.takeWhile Char.isDigit) 0, text.dropWhile Char.isDigit)

def readValue : List Char → Option (Json × List Char)
  | [] => none
  | c :: rest =>
    if c = '\x22' then (readText rest).map fun (text, rest) => (.string (String.ofList text), rest)
    else if c = 't' then (after? "rue".toList rest).map fun rest => (.bool true, rest)
    else if c = 'f' then (after? "alse".toList rest).map fun rest => (.bool false, rest)
    else if c = '-' then some (.int (-((readNumber rest).1 : Int)), (readNumber rest).2)
    else if c.isDigit then some (.int (readNumber (c :: rest)).1, (readNumber (c :: rest)).2)
    else none

theorem readNumber_repr (n : Nat) {rest : List Char} (ends : EndsNumber rest) :
    readNumber (n.repr.toList ++ rest) = (n, rest) := by
  have all : ∀ c ∈ Nat.toDigits 10 n, c.isDigit = true := fun c member =>
    Nat.isDigit_of_mem_toDigits (by decide) (by decide) member
  obtain ⟨taken, dropped⟩ := digits_append all ends
  rw [readNumber, Nat.toList_repr, taken, dropped, Nat.ofDigitChars_ten_toDigits]

theorem readValue_repr (n : Nat) {rest : List Char} (ends : EndsNumber rest) :
    readValue (n.repr.toList ++ rest) = some (.int n, rest) := by
  have read := readNumber_repr n ends
  cases digits : n.repr.toList with
  | nil =>
    rw [Nat.toList_repr] at digits
    exact absurd digits Nat.toDigits_ne_nil
  | cons c others =>
    have digit : c.isDigit = true := by
      have member : c ∈ n.repr.toList := digits ▸ List.mem_cons_self
      rw [Nat.toList_repr] at member
      exact Nat.isDigit_of_mem_toDigits (by decide) (by decide) member
    have plain : c ≠ '\x22' ∧ c ≠ 't' ∧ c ≠ 'f' ∧ c ≠ '-' := by
      refine ⟨?_, ?_, ?_, ?_⟩ <;>
      · rintro rfl
        exact absurd digit (by decide)
    rw [digits, List.cons_append] at read
    rw [List.cons_append, readValue, if_neg plain.1, if_neg plain.2.1, if_neg plain.2.2.1, if_neg plain.2.2.2,
      if_pos digit, read]

theorem readValue_printValue {value : Json} (flat : Flat value) {rest : List Char} (ends : EndsNumber rest) :
    readValue (printValue value ++ rest) = some (value, rest) := by
  cases value with
  | int value =>
    rw [printValue, Int.toString_eq_repr, Int.repr_eq_if]
    split
    · rename_i nonnegative
      rw [readValue_repr _ ends, Int.toNat_of_nonneg nonnegative]
    · rename_i negative
      have read := readNumber_repr (-value).toNat ends
      have shape : ("-" ++ (-value).toNat.repr).toList ++ rest =
          '-' :: ((-value).toNat.repr.toList ++ rest) := by
        simp
      rw [shape, readValue, if_neg (by decide), if_neg (by decide), if_neg (by decide), if_pos rfl, read]
      have back : -((-value).toNat : Int) = value := by omega
      rw [back]
  | bool value =>
    cases value with
    | true => rfl
    | false => rfl
  | string value =>
    have shape : printValue (.string value) ++ rest = '\x22' :: (escape value.toList ++ '\x22' :: rest) := by
      simp [printValue]
    rw [shape, readValue, if_pos rfl, readText_escape]
    simp
  | _ => exact absurd flat id

/-! ## Objects -/

def printMember (member : String × Json) : List Char :=
  "   \"".toList ++ (escape member.1.toList ++ '\x22' :: (" : ".toList ++ printValue member.2))

def printMembers : List (String × Json) → List Char
  | [] => []
  | [member] => printMember member
  | member :: rest => printMember member ++ (",\n".toList ++ printMembers rest)

def toStyledString : Json → String
  | .object members => String.ofList ("\x7b\n".toList ++ (printMembers members ++ "\n\x7d\n".toList))
  | _ => "null\n"

/-- The members up to the closing brace.  The fuel is the length of the text. -/
def readMembers : Nat → List Char → Option (List (String × Json))
  | 0, _ => none
  | fuel + 1, text => do
    let text ← after? "   \"".toList text
    let (key, text) ← readText text
    let text ← after? " : ".toList text
    let (value, text) ← readValue text
    if text = "\n\x7d\n".toList then
      some [(String.ofList key, value)]
    else
      let text ← after? ",\n".toList text
      let rest ← readMembers fuel text
      some ((String.ofList key, value) :: rest)

def parse (text : String) : Option Json :=
  (after? "\x7b\n".toList text.toList).bind fun members => (readMembers text.length members).map Json.object

theorem readMembers_printMembers {members : List (String × Json)} (some' : members ≠ [])
    (flat : ∀ member ∈ members, Flat member.2) {fuel : Nat} (enough : members.length ≤ fuel) :
    readMembers fuel (printMembers members ++ "\n\x7d\n".toList) = some members := by
  induction members generalizing fuel with
  | nil => contradiction
  | cons member rest inductionHypothesis =>
    obtain ⟨flatMember, flatRest⟩ := List.forall_mem_cons.mp flat
    cases fuel with
    | zero => simp at enough
    | succ fuel =>
      have oneMember : ∀ text, EndsNumber text →
          readMembers (fuel + 1) (printMember member ++ text) =
            if text = "\n\x7d\n".toList then some [member]
            else (after? ",\n".toList text).bind fun text =>
              (readMembers fuel text).bind fun rest => some (member :: rest) := by
        intro text ends
        have shape : printMember member ++ text = "   \"".toList ++
            (escape member.1.toList ++ '\x22' :: (" : ".toList ++ (printValue member.2 ++ text))) := by
          simp [printMember]
        rw [readMembers, shape, after?_append]
        simp only [bind, Option.bind, readText_escape, after?_append, readValue_printValue flatMember ends,
          String.ofList_toList]
      cases rest with
      | nil =>
        rw [printMembers, oneMember _ (by simp [EndsNumber]), if_pos rfl]
      | cons next rest =>
        have shape : printMembers (member :: next :: rest) ++ "\n\x7d\n".toList =
            printMember member ++ (",\n".toList ++ (printMembers (next :: rest) ++ "\n\x7d\n".toList)) := by
          simp [printMembers]
        have others := inductionHypothesis (by simp) flatRest (Nat.le_of_succ_le_succ enough)
        rw [shape, oneMember _ (by simp [EndsNumber]), if_neg (by simp), after?_append, Option.bind_some,
          others,
          Option.bind_some]

theorem length_le_printMembers (members : List (String × Json)) :
    members.length ≤ (printMembers members).length := by
  induction members with
  | nil => simp
  | cons member rest inductionHypothesis =>
    cases rest with
    | nil => simp [printMembers, printMember]
    | cons next rest =>
      simp only [printMembers, List.length_append, List.length_cons] at inductionHypothesis ⊢
      have comma : ",\n".toList.length = 2 := rfl
      omega

/-- Parsing gives back a printed object. -/
theorem parse_toStyledString {members : List (String × Json)} (some' : members ≠ [])
    (flat : ∀ member ∈ members, Flat member.2) :
    parse (toStyledString (.object members)) = some (.object members) := by
  have shown : (toStyledString (.object members)).toList =
      "\x7b\n".toList ++ (printMembers members ++ "\n\x7d\n".toList) := String.toList_ofList
  have enough : members.length ≤ (toStyledString (.object members)).length := by
    have members := length_le_printMembers members
    rw [← String.length_toList, shown, List.length_append, List.length_append]
    omega
  rw [parse, shown, after?_append, Option.bind_some, readMembers_printMembers some' flat enough,
    Option.map_some]

/-! ## Texts that fit between quotes -/

/-- The text has no single quote, and no zero character that would end it for `%s`. -/
def Quotable (text : String) : Prop := '\x27' ∉ text.toList ∧ '\x00' ∉ text.toList

instance (text : String) : Decidable (Quotable text) :=
  inferInstanceAs (Decidable ('\x27' ∉ text.toList ∧ '\x00' ∉ text.toList))

theorem cStr_eq_self {text : String} (noZero : '\x00' ∉ text.toList) : cStr text = text := by
  have all : text.toList.takeWhile (· != '\x00') = text.toList := by
    rw [List.takeWhile_eq_self_iff]
    intro c member
    have other : c ≠ '\x00' := fun zero => noZero (zero ▸ member)
    simpa using other
  rw [cStr, all, String.ofList_toList]

theorem cStr_of_quotable {text : String} (quotable : Quotable text) : cStr text = text :=
  cStr_eq_self quotable.2

/-- A member whose name and text fit between quotes. -/
def QuotableMember (member : String × Json) : Prop :=
  Quotable member.1 ∧ Flat member.2 ∧ ∀ value, member.2 = .string value → Quotable value

theorem mem_escape {c : Char} {text : List Char} (member : c ∈ escape text) : c ∈ text ∨ c = '\x5c' := by
  simp only [escape, List.mem_flatMap] at member
  obtain ⟨d, inText, member⟩ := member
  split at member
  · simp only [List.mem_cons, List.not_mem_nil, or_false] at member
    cases member with
    | inl backslash => exact .inr backslash
    | inr same => exact .inl (same ▸ inText)
  · exact .inl (List.mem_singleton.mp member ▸ inText)

/-- A character that a number, a keyword and the punctuation of an object are free of. -/
def Foreign (c : Char) : Prop :=
  c.isDigit = false ∧ c ∉ "-truefalsn\" :,\x7b\x7d\n\\".toList

theorem foreign_printMember {c : Char} (foreign : Foreign c) {member : String × Json} (flat : Flat member.2)
    (name : c ∉ member.1.toList) (text : ∀ value, member.2 = .string value → c ∉ value.toList) :
    c ∉ printMember member := by
  obtain ⟨noDigit, noSign⟩ := foreign
  have number : ∀ n : Nat, c ∉ n.repr.toList := by
    intro n member
    rw [Nat.toList_repr] at member
    rw [Nat.isDigit_of_mem_toDigits (by decide) (by decide) member] at noDigit
    contradiction
  simp at noSign
  have escaped : ∀ {text : List Char}, c ∉ text → c ∉ escape text := by
    intro text absent member
    cases mem_escape member with
    | inl inText => exact absent inText
    | inr backslash => simp [backslash] at noSign
  have value : c ∉ printValue member.2 := by
    cases shape : member.2 with
    | int value =>
      rw [printValue, Int.toString_eq_repr, Int.repr_eq_if]
      split
      · exact number _
      · have digits := number (-value).toNat
        rw [Nat.toList_repr] at digits
        simp [noSign, digits]
    | bool value => cases value <;> simp [printValue, noSign]
    | string value => simp [printValue, noSign, escaped (text value shape)]
    | _ => simp [shape, Flat] at flat
  simp [printMember, noSign, escaped name, value]

theorem foreign_printMembers {c : Char} (foreign : Foreign c) {members : List (String × Json)}
    (flat : ∀ member ∈ members, Flat member.2) (names : ∀ member ∈ members, c ∉ member.1.toList)
    (texts : ∀ member ∈ members, ∀ value, member.2 = .string value → c ∉ value.toList) :
    c ∉ printMembers members := by
  induction members with
  | nil => simp [printMembers]
  | cons member rest inductionHypothesis =>
    obtain ⟨flatMember, flatRest⟩ := List.forall_mem_cons.mp flat
    obtain ⟨nameMember, nameRest⟩ := List.forall_mem_cons.mp names
    obtain ⟨textMember, textRest⟩ := List.forall_mem_cons.mp texts
    have first := foreign_printMember foreign flatMember nameMember textMember
    cases rest with
    | nil => exact first
    | cons next rest =>
      have others := inductionHypothesis flatRest nameRest textRest
      have comma : c ∉ ",\n".toList := by
        have noSign := foreign.2
        simp at noSign ⊢
        exact ⟨noSign.2.2.2.2.2.2.2.2.2.2.2.2.2.1, noSign.2.2.2.2.2.2.2.2.2.2.2.2.2.2.2.2.1⟩
      simp only [printMembers, List.mem_append, not_or]
      exact ⟨first, comma, others⟩

theorem quotable_toStyledString {members : List (String × Json)}
    (quotable : ∀ member ∈ members, QuotableMember member) : Quotable (toStyledString (.object members)) := by
  have absent : ∀ c, Foreign c → (∀ text : String, Quotable text → c ∉ text.toList) →
      c ∉ (toStyledString (.object members)).toList := by
    intro c foreign notIn
    have inside := foreign_printMembers foreign (fun member listed => (quotable member listed).2.1)
      (fun member listed => notIn member.1 (quotable member listed).1)
      fun member listed value shape => notIn value ((quotable member listed).2.2 value shape)
    have noSign := foreign.2
    simp at noSign
    simp [toStyledString, inside, noSign]
  exact ⟨absent '\x27' ⟨by decide, by decide⟩ fun _ quotable => quotable.1,
    absent '\x00' ⟨by decide, by decide⟩ fun _ quotable => quotable.2⟩

/-! ## sqlite -/

def insertedRow? (statement : List Char) : Option (String × String) := do
  let rest ← after? "Insert into  dnuser (strdn  ,strserize ) values('".toList statement
  let dn := rest.takeWhile (· != '\x27')
  let rest ← after? "','".toList (rest.dropWhile (· != '\x27'))
  let text := rest.takeWhile (· != '\x27')
  if rest.dropWhile (· != '\x27') = "') ".toList then some (String.ofList dn, String.ofList text) else none

def deletedName? (statement : List Char) : Option String := do
  let rest ← after? "delete from  dnuser where strdn = '".toList statement
  if rest.dropWhile (· != '\x27') = "'".toList then
    some (String.ofList (rest.takeWhile (· != '\x27')))
  else none

/-- `sqlite3_exec` on the statements of `SqlitePersist`; everything else is ill-formed. -/
def sqlite (statement : String) : DnuserTable → Option DnuserTable
  | none =>
    if statement = "create table dnuser(strdn varchar(255) ,strserize varchar(255))" then some (some [])
    else none
  | some rows =>
    match insertedRow? statement.toList with
    | some row => some (some (rows ++ [row]))
    | none => (deletedName? statement.toList).map fun dn => some (rows.filter fun row => row.1 ≠ dn)

theorem quoted_append {text : String} (quotable : Quotable text) (rest : List Char) :
    (text.toList ++ '\x27' :: rest).takeWhile (· != '\x27') = text.toList ∧
      (text.toList ++ '\x27' :: rest).dropWhile (· != '\x27') = '\x27' :: rest := by
  have all : ∀ c ∈ text.toList, (c != '\x27') = true := by
    intro c member
    have other : c ≠ '\x27' := fun quote => quotable.1 (quote ▸ member)
    simpa using other
  rw [List.takeWhile_append_of_pos all, List.dropWhile_append_of_pos all]
  simp

theorem sqlite_insert {dn text : String} (quotableDn : Quotable dn) (quotableText : Quotable text)
    (rows : List (String × String)) :
    sqlite ("Insert into  dnuser (strdn  ,strserize ) values('" ++ dn ++ "','" ++ text ++ "') ") (some rows) =
      some (some (rows ++ [(dn, text)])) := by
  have shape : ("Insert into  dnuser (strdn  ,strserize ) values('" ++ dn ++ "','" ++ text ++ "') ").toList =
      "Insert into  dnuser (strdn  ,strserize ) values('".toList ++
        (dn.toList ++ '\x27' :: ([',', '\x27'] ++ (text.toList ++ '\x27' :: [')', ' ']))) := by
    simp
  obtain ⟨takenDn, droppedDn⟩ := quoted_append quotableDn
    ([',', '\x27'] ++ (text.toList ++ '\x27' :: [')', ' ']))
  obtain ⟨takenText, droppedText⟩ := quoted_append quotableText ([')', ' '])
  have next : '\x27' :: ([',', '\x27'] ++ (text.toList ++ '\x27' :: [')', ' '])) =
      "','".toList ++ (text.toList ++ '\x27' :: [')', ' ']) := rfl
  have row : insertedRow? ("Insert into  dnuser (strdn  ,strserize ) values('" ++ dn ++ "','" ++ text ++
      "') ").toList =
      some (dn, text) := by
    simp only [insertedRow?, shape, after?_append, bind, Option.bind, takenDn, droppedDn]
    rw [next, after?_append]
    simp only [takenText, droppedText, String.ofList_toList]
    rfl
  rw [sqlite, row]

/-- A quote in the text ends it early, and the rest of the statement is ill-formed. -/
theorem sqlite_insert_of_quote {dn text : String} (quotableDn : Quotable dn) (quoted : '\x27' ∈ text.toList)
    (rows : List (String × String)) :
    sqlite ("Insert into  dnuser (strdn  ,strserize ) values('" ++ dn ++ "','" ++ text ++ "') ")
      (some rows) = none := by
  have shape : ("Insert into  dnuser (strdn  ,strserize ) values('" ++ dn ++ "','" ++ text ++ "') ").toList =
      "Insert into  dnuser (strdn  ,strserize ) values('".toList ++
        (dn.toList ++ '\x27' :: ([',', '\x27'] ++ (text.toList ++ ['\x27', ')', ' ']))) := by
    simp
  obtain ⟨takenDn, droppedDn⟩ := quoted_append quotableDn ([',', '\x27'] ++ (text.toList ++ ['\x27', ')', ' ']))
  have next : '\x27' :: ([',', '\x27'] ++ (text.toList ++ ['\x27', ')', ' '])) =
      "','".toList ++ (text.toList ++ ['\x27', ')', ' ']) := rfl
  -- what follows the first quote is longer than the end of the statement
  have early : (text.toList ++ ['\x27', ')', ' ']).dropWhile (· != '\x27') ≠ "') ".toList := by
    have some' : text.toList.dropWhile (· != '\x27') ≠ [] := by
      intro empty
      have dropped := List.dropWhile_eq_nil_iff.mp empty _ quoted
      contradiction
    intro ends
    rw [List.dropWhile_append, if_neg (by simpa using some')] at ends
    have lengths := congrArg List.length ends
    have longer := List.length_pos_iff.mpr some'
    rw [List.length_append] at lengths
    have three : "') ".toList.length = 3 := rfl
    have three' : ['\x27', ')', ' '].length = 3 := rfl
    omega
  have row : insertedRow? ("Insert into  dnuser (strdn  ,strserize ) values('" ++ dn ++ "','" ++ text ++
      "') ").toList =
      none := by
    simp only [insertedRow?, shape, after?_append, bind, Option.bind, takenDn, droppedDn]
    rw [next, after?_append]
    simp only [if_neg early]
  have noName : deletedName? ("Insert into  dnuser (strdn  ,strserize ) values('" ++ dn ++ "','" ++
      text ++ "') ").toList =
      none := by
    rw [shape]
    rfl
  rw [sqlite, row, noName, Option.map_none]

theorem sqlite_delete {dn : String} (quotable : Quotable dn) (rows : List (String × String)) :
    sqlite ("delete from  dnuser where strdn = '" ++ dn ++ "'") (some rows) =
      some (some (rows.filter fun row => row.1 ≠ dn)) := by
  have shape : ("delete from  dnuser where strdn = '" ++ dn ++ "'").toList =
      "delete from  dnuser where strdn = '".toList ++ (dn.toList ++ '\x27' :: []) := by
    simp
  obtain ⟨taken, dropped⟩ := quoted_append quotable []
  have noRow : insertedRow? ("delete from  dnuser where strdn = '".toList ++
      (dn.toList ++ '\x27' :: [])) = none := rfl
  have name : deletedName? ("delete from  dnuser where strdn = '".toList ++ (dn.toList ++ '\x27' :: [])) =
      some dn := by
    simp only [deletedName?, after?_append, bind, Option.bind, taken, dropped, String.ofList_toList]
    rfl
  rw [sqlite, shape, noRow, name]
  rfl

/-- jsoncpp and sqlite, for concrete runs. -/
def workingLibraries : Libraries where
  parse := parse
  toStyledString := toStyledString
  sqlite3Exec := sqlite

/-- No row is written for an agent with a quote in one of its texts. -/
theorem insertTable_of_quote {user : DNuser} (quotableDn : Quotable user.dn)
    (quoted : '\x27' ∈ (user.serialize workingLibraries).toList)
    (noZero : '\x00' ∉ (user.serialize workingLibraries).toList) (rows : List (String × String)) :
    insertTable workingLibraries user (some rows) = (false, some rows) := by
  have rejected := sqlite_insert_of_quote quotableDn quoted rows
  rw [insertTable, cStr_of_quotable quotableDn, cStr_eq_self noZero, runStatement]
  rw [show workingLibraries.sqlite3Exec = sqlite from rfl, rejected]

end CallCenter.Verified
