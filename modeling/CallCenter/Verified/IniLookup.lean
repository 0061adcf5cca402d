import CallCenter.Verified.IniLines

/-!
# Lookups and the search for a section

What `iniGetValue` finds is a matter of the entries of the lines: it is the value of the first key
of that name in the first section of that name.  `FindSection` finds the same section, and ends it
behind the last of its lines that was a header or set a value.
-/

namespace CallCenter.Verified.IniLookup

open CallCenter.Foundation (Text)
open CallCenter.Foundation.Text
open CallCenter.Model CallCenter.Model.Inirw
open CallCenter.Verified.IniLines

/-! ## Lookups -/

/-- `iniGetValue` over entries: the value of the first key of that name in the first section of that
name.  `found` tells whether the section has begun. -/
def lookup (sect : Option Text) (key : Text) : Bool → List (Except Fault Entry) → Except Fault (Option Text)
  | _, [] => .ok none
  | _, .error fault :: _ => .error fault
  | found, .ok (.lineSection, content) :: rest =>
    match sect with
    | none => .ok none
    | some sect => if found then .ok none else lookup (some sect) key (striCmp (sectionName content) sect) rest
  | found, .ok (.lineValue, content) :: rest =>
    if !(found || sect.isNone) then lookup sect key found rest
    else if striCmp (getKeyValue content).1 key then
      .ok (if (getKeyValue content).2 = [] then none else some (getKeyValue content).2)
    else lookup sect key (found || sect.isNone) rest
  | found, .ok (_, _) :: rest => lookup sect key found rest

section
variable (sect : Option Text) (key : Text) (found : Bool) (content : Text) (rest : List (Except Fault Entry))

@[simp] theorem lookup_nil : lookup sect key found [] = .ok none := rfl

@[simp] theorem lookup_fault (fault : Fault) :
    lookup sect key found (.error fault :: rest) = .error fault := rfl

@[simp] theorem lookup_noSection : lookup none key found (.ok (.lineSection, content) :: rest) = .ok none := rfl

@[simp] theorem lookup_header (name : Text) :
    lookup (some name) key found (.ok (.lineSection, content) :: rest) =
      if found then .ok none else lookup (some name) key (striCmp (sectionName content) name) rest := rfl

@[simp] theorem lookup_value :
    lookup sect key found (.ok (.lineValue, content) :: rest) =
      if !(found || sect.isNone) then lookup sect key found rest
      else if striCmp (getKeyValue content).1 key then
        .ok (if (getKeyValue content).2 = [] then none else some (getKeyValue content).2)
      else lookup sect key (found || sect.isNone) rest := rfl

@[simp] theorem lookup_passed {type : ELineType} (noHeader : type ≠ .lineSection)
    (noValue : type ≠ .lineValue) :
    lookup sect key found (.ok (type, content) :: rest) = lookup sect key found rest := by
  cases type <;> first | rfl | contradiction

end

theorem getValueBody_skips (sect : Option Text) (key : Text) : SkipsEmpty (getValueBody sect key) := by
  intro state p line isEmpty
  simp only [getValueBody, isEmpty]

theorem scanChunks_getValue (sect : Option Text) (key : Text) (more : Bool) (p : Nat) (chunks : List Chunk)
    (state : ValueSearch) (none : state.value = none) :
    (scanChunks (getValueBody sect key) more p chunks state).map (fun after => (leave after).value) =
      lookup sect key state.found (entries more chunks) := by
  induction chunks generalizing p state with
  | nil => simp [scanChunks, entries, Except.map, leave, none]
  | cons chunk chunks inductionHypothesis =>
    rw [scanChunks, entries, entry]
    cases read : reading chunk (more || !chunks.isEmpty) with
    | error fault => rfl
    | ok line =>
      obtain ⟨type, content, rem1, rem2, nextline⟩ := line
      simp only [bind, Except.bind, Except.map, getValueBody]
      cases type with
      | lineSection =>
        cases sect with
        | none => simp [pure, Except.pure, leave, none]
        | some sect =>
          cases begun : state.found with
          | true => simp [pure, Except.pure, leave, none]
          | false =>
            simp only [lookup_header, Bool.false_eq_true, if_false]
            exact inductionHypothesis _ _ none
      | lineValue =>
        cases inSection : state.found || sect.isNone with
        | false =>
          simp only [lookup_value, inSection, Bool.not_false, if_true]
          exact inductionHypothesis _ _ none
        | true =>
          simp only [lookup_value, inSection, Bool.not_true, Bool.false_eq_true, if_false]
          cases same : striCmp (getKeyValue content).1 key with
          | true => simp [pure, Except.pure, leave]
          | false =>
            simp only [Bool.false_eq_true, if_false]
            exact inductionHypothesis _ _ none
      | lineIdle | lineError | lineEmpty => exact inductionHypothesis _ _ none

/-- What `iniGetValue` finds is a matter of the entries. -/
theorem findValue_eq {lead : Text} {chunks : List Chunk} (ends : ∀ c ∈ lead, isEnd c = true)
    (spaced : Spaced chunks) (sect : Option Text) (key : Text) :
    findValue (lead ++ textOf chunks) sect key = lookup sect key false (entries false chunks) := by
  have skips := getValueBody_skips sect key
  rw [findValue, scanLines_gap skips ends (startsLine_textOf chunks), scanLines_chunks skips spaced,
    ← scanChunks_getValue sect key false (0 + lead.length) chunks {} rfl]
  cases scanChunks (getValueBody sect key) false (0 + lead.length) chunks {} <;> rfl

/-! ## Where a lookup ends -/

/-- The header of a section of that name. -/
def Opens (sect : Text) (read : Except Fault Entry) : Prop :=
  ∃ content, read = .ok (.lineSection, content) ∧ striCmp (sectionName content) sect = true

/-- A line that was read and is no header of a section of that name. -/
def NotOpens (sect : Text) (read : Except Fault Entry) : Prop :=
  ∃ type content, read = .ok (type, content) ∧
    (type = .lineSection → striCmp (sectionName content) sect = false)

/-- A line that was read and ends no section. -/
def Inside (read : Except Fault Entry) : Prop :=
  ∃ type content, read = .ok (type, content) ∧ type ≠ .lineSection

/-- A line that sets a key of that name. -/
def Sets (key : Text) (read : Except Fault Entry) : Prop :=
  ∃ content, read = .ok (.lineValue, content) ∧ striCmp (getKeyValue content).1 key = true

theorem striCmp_iff {first second : Text} :
    striCmp first second = true ↔ first.map Char.toLower = second.map Char.toLower := beq_iff_eq

theorem striCmp_congr {first second : Text} (same : striCmp first second = true) (other : Text) :
    striCmp first other = striCmp second other := by
  rw [striCmp, striCmp, striCmp_iff.mp same]

theorem lookup_notOpens {sect key : Text} {front : List (Except Fault Entry)}
    (before : ∀ read ∈ front, NotOpens sect read) (rest : List (Except Fault Entry)) :
    lookup (some sect) key false (front ++ rest) = lookup (some sect) key false rest := by
  induction front with
  | nil => rfl
  | cons read front inductionHypothesis =>
    obtain ⟨type, content, rfl, notOpens⟩ := before _ List.mem_cons_self
    have following := inductionHypothesis fun member mem => before member (List.mem_cons_of_mem _ mem)
    cases type with
    | lineSection =>
      rw [List.cons_append, lookup_header, notOpens rfl]
      simpa using following
    | lineIdle | lineError | lineEmpty | lineValue => simpa using following

theorem lookup_opens {sect : Text} {read : Except Fault Entry} (opens : Opens sect read) (key : Text)
    (rest : List (Except Fault Entry)) :
    lookup (some sect) key false (read :: rest) = lookup (some sect) key true rest := by
  obtain ⟨content, rfl, same⟩ := opens
  simp [same]

/-- In the section, lines that do not set the key are passed. -/
theorem lookup_inside {sect key : Text} {front : List (Except Fault Entry)}
    (inside : ∀ read ∈ front, Inside read)
    (others : ∀ read ∈ front, ¬ Sets key read) (rest : List (Except Fault Entry)) :
    lookup (some sect) key true (front ++ rest) = lookup (some sect) key true rest := by
  induction front with
  | nil => rfl
  | cons read front inductionHypothesis =>
    obtain ⟨type, content, rfl, noHeader⟩ := inside _ List.mem_cons_self
    have notSets := others _ List.mem_cons_self
    have following := inductionHypothesis (fun member mem => inside member (List.mem_cons_of_mem _ mem))
      fun member mem => others member (List.mem_cons_of_mem _ mem)
    cases type with
    | lineSection => exact absurd rfl noHeader
    | lineValue =>
      have differs : striCmp (getKeyValue content).1 key = false := by
        rw [← Bool.not_eq_true]
        exact fun same => notSets ⟨content, rfl, same⟩
      simpa [differs] using following
    | lineIdle | lineError | lineEmpty => simpa using following

theorem lookup_congr {sect : Option Text} {key : Text} {first second : List (Except Fault Entry)}
    (same : ∀ found, lookup sect key found first = lookup sect key found second)
    (front : List (Except Fault Entry))
    (found : Bool) : lookup sect key found (front ++ first) = lookup sect key found (front ++ second) := by
  induction front generalizing found with
  | nil => exact same found
  | cons read front inductionHypothesis =>
    cases read with
    | error fault => rfl
    | ok line =>
      obtain ⟨type, content⟩ := line
      cases type with
      | lineSection =>
        cases sect with
        | none => rfl
        | some name =>
          simp only [List.cons_append, lookup_header]
          split
          · rfl
          · exact inductionHypothesis _
      | lineValue =>
        simp only [List.cons_append, lookup_value]
        split
        · exact inductionHypothesis _
        · split
          · rfl
          · exact inductionHypothesis _
      | lineIdle | lineError | lineEmpty => exact inductionHypothesis _

/-- Outside its section a lookup does not see what a section holds. -/
theorem lookup_closed {sect : Text} {key : Text} {front first second : List (Except Fault Entry)}
    (inside : ∀ read ∈ front, Inside read)
    (same : lookup (some sect) key false first = lookup (some sect) key false second) :
    lookup (some sect) key false (front ++ first) = lookup (some sect) key false (front ++ second) := by
  induction front with
  | nil => exact same
  | cons read front inductionHypothesis =>
    obtain ⟨type, content, rfl, noHeader⟩ := inside _ List.mem_cons_self
    have following := inductionHypothesis fun member mem => inside member (List.mem_cons_of_mem _ mem)
    cases type with
    | lineSection => exact absurd rfl noHeader
    | lineIdle | lineError | lineEmpty | lineValue => simpa using following

theorem striCmp_comm (first second : Text) : striCmp first second = striCmp second first := by
  rw [striCmp, striCmp, Bool.beq_comm]

/-- Without a section the lookup looks at the values before the first header. -/
theorem lookup_none (key : Text) (found : Bool) (reads : List (Except Fault Entry)) :
    lookup none key found reads = lookup none key true reads := by
  induction reads generalizing found with
  | nil => rfl
  | cons read reads inductionHypothesis =>
    cases read with
    | error fault => rfl
    | ok line =>
      obtain ⟨type, content⟩ := line
      cases type with
      | lineSection => rfl
      | lineValue => simp
      | lineIdle | lineError | lineEmpty => exact inductionHypothesis found

/-- A line that sets another key is passed wherever it stands. -/
theorem lookup_otherKey {key other : Text} {read : Except Fault Entry} (sets : Sets key read)
    (differs : striCmp other key = false) (sect : Option Text) (found : Bool)
    (rest : List (Except Fault Entry)) :
    lookup sect other found (read :: rest) = lookup sect other found rest := by
  obtain ⟨content, rfl, same⟩ := sets
  have passed : striCmp (getKeyValue content).1 other = false := by
    rw [striCmp_congr same, striCmp_comm, differs]
  cases sect with
  | none =>
    rw [lookup_none other found rest]
    simp [passed]
  | some sect => cases found <;> simp [passed]

/-- The pair names another section or another key, compared without case. -/
def Apart (sect key : Text) (other : Option Text) (otherKey : Text) : Prop :=
  ∀ name, other = some name → striCmp name sect = true → striCmp otherKey key = false

/-- A line of the section does not matter to the lookup of another pair. -/
theorem lookup_apart {sect key otherKey : Text} {other : Option Text} (apart : Apart sect key other otherKey)
    {header read : Except Fault Entry} {mid : List (Except Fault Entry)} (opens : Opens sect header)
    (inside : ∀ read ∈ mid, Inside read) (sets : Sets key read) (rest : List (Except Fault Entry))
    (found : Bool) :
    lookup other otherKey found (header :: (mid ++ read :: rest)) =
      lookup other otherKey found (header :: (mid ++ rest)) := by
  obtain ⟨content, rfl, same⟩ := opens
  cases other with
  | none => rfl
  | some name =>
    cases found with
    | true => rfl
    | false =>
      simp only [lookup_header, Bool.false_eq_true, if_false]
      cases entered : striCmp (sectionName content) name with
      | true =>
        have sameName : striCmp name sect = true := by
          rw [striCmp_iff] at *
          exact entered.symm.trans same
        exact lookup_congr (fun found => lookup_otherKey sets (apart name rfl sameName) _ found rest) mid true
      | false =>
        refine lookup_closed inside ?_
        obtain ⟨content, rfl, _⟩ := sets
        simp

/-! ## What `FindSection` finds -/

/-- What `iniSetString` uses of the search. -/
structure Reached where
  found : Bool
  cont1 : Nat
  empty : Nat

def reached (state : SectionSearch) : Reached := ⟨state.found, state.cont1, state.empty⟩

def searchBody (sect : Text) (state : Reached) (p : Nat) (line : LineRead) : Except Fault (ForInStep Reached) :=
  let before : SectionSearch := { found := state.found, cont1 := state.cont1, empty := state.empty }
  (findSectionBody (some sect) before p line).map (mapStep reached)

theorem searchBody_follows (sect : Text) (state : SectionSearch) (p : Nat) (line : LineRead) :
    searchBody sect (reached state) p line =
      (findSectionBody (some sect) state p line).map (mapStep reached) := by
  cases type : line.type with
  | lineSection =>
    obtain ⟨found, sect1, sect2, cont1, empty, nextline⟩ := state
    simp only [searchBody, findSectionBody, type, reached]
    cases found with
    | true => rfl
    | false => cases same : striCmp (sectionName line.content) sect <;> simp [Except.map, mapStep, reached]
  | lineValue => simp [searchBody, findSectionBody, type, reached, Except.map, mapStep]
  | lineIdle | lineError | lineEmpty =>
    simp only [searchBody, findSectionBody, type]
    rfl

theorem searchBody_passes {sect : Text} {state : Reached} {p : Nat} {line : LineRead}
    (noHeader : line.type ≠ .lineSection) (noValue : line.type ≠ .lineValue) :
    searchBody sect state p line = .ok (.yield state) := by
  cases shape : line.type with
  | lineSection => exact absurd shape noHeader
  | lineValue => exact absurd shape noValue
  | lineIdle | lineError | lineEmpty =>
    simp only [searchBody, findSectionBody, shape]
    rfl

theorem searchBody_value {sect : Text} {state : Reached} {p : Nat} {line : LineRead}
    (value : line.type = .lineValue) :
    searchBody sect state p line = .ok (.yield { state with empty := p + line.nextline }) := by
  simp [searchBody, findSectionBody, value, Except.map, mapStep, reached]

theorem searchBody_ends {sect : Text} {state : Reached} {p : Nat} {line : LineRead}
    (header : line.type = .lineSection) (begun : state.found = true) :
    searchBody sect state p line = .ok (.done state) := by
  obtain ⟨found, cont1, empty⟩ := state
  cases begun
  simp [searchBody, findSectionBody, header, Except.map, mapStep, reached]

theorem searchBody_opens {sect : Text} {state : Reached} {p : Nat} {line : LineRead}
    (header : line.type = .lineSection) (begun : state.found = false)
    (same : striCmp (sectionName line.content) sect = true) :
    searchBody sect state p line =
      .ok (.yield
        { found := true
          cont1 := p + line.nextline
          empty := p + line.nextline }) := by
  simp [searchBody, findSectionBody, header, begun, same, Except.map, mapStep, reached]

theorem searchBody_other {sect : Text} {state : Reached} {p : Nat} {line : LineRead}
    (header : line.type = .lineSection) (begun : state.found = false)
    (other : striCmp (sectionName line.content) sect = false) :
    searchBody sect state p line = .ok (.yield { state with empty := p + line.nextline }) := by
  simp [searchBody, findSectionBody, header, begun, other, Except.map, mapStep, reached]

/-- What one line does once the section has begun. -/
theorem searchBody_begun {sect : Text} {state : Reached} (p : Nat) (line : LineRead)
    (begun : state.found = true) :
    (line.type = .lineSection ∧ searchBody sect state p line = .ok (.done state)) ∨
      (line.type ≠ .lineSection ∧ ∃ after, searchBody sect state p line = .ok (.yield after) ∧
        after.found = true ∧ after.cont1 = state.cont1 ∧
        (after.empty = state.empty ∨ after.empty = p + line.nextline)) := by
  by_cases header : line.type = .lineSection
  · exact .inl ⟨header, searchBody_ends header begun⟩
  · refine .inr ⟨header, ?_⟩
    by_cases value : line.type = .lineValue
    · exact ⟨_, searchBody_value value, begun, rfl, .inr rfl⟩
    · exact ⟨state, searchBody_passes header value, begun, rfl, .inl rfl⟩

/-- What one line does before the section has begun. -/
theorem searchBody_outside {sect : Text} {state : Reached} (p : Nat) (line : LineRead)
    (outside : state.found = false) :
    (line.type = .lineSection ∧ striCmp (sectionName line.content) sect = true ∧
      searchBody sect state p line =
        .ok (.yield
          { found := true
            cont1 := p + line.nextline
            empty := p + line.nextline })) ∨
      ((line.type = .lineSection → striCmp (sectionName line.content) sect = false) ∧
        ∃ after, searchBody sect state p line = .ok (.yield after) ∧ after.found = false) := by
  by_cases header : line.type = .lineSection
  · cases same : striCmp (sectionName line.content) sect with
    | true => exact .inl ⟨header, rfl, searchBody_opens header outside same⟩
    | false => exact .inr ⟨fun _ => rfl, _, searchBody_other header outside same, outside⟩
  · refine .inr ⟨fun isHeader => absurd isHeader header, ?_⟩
    by_cases value : line.type = .lineValue
    · exact ⟨_, searchBody_value value, outside⟩
    · exact ⟨state, searchBody_passes header value, outside⟩

/-- Lines of the section that end where the search puts the end of the section. -/
def EndsAt (more : Bool) (p : Nat) (chunks : List Chunk) (empty : Nat) : Prop :=
  ∃ front last back, chunks = front ++ last :: back ∧
    (∀ read ∈ entries (more || !back.isEmpty) (front ++ [last]), Inside read) ∧
    empty = p + (textOf front).length + last.body.length + (lineEnd (more || !back.isEmpty) last.gap).1

theorem EndsAt.cons {more : Bool} {p empty : Nat} {chunk : Chunk} {chunks : List Chunk} {line : LineRead}
    (read : reading chunk (more || !chunks.isEmpty) = .ok line) (noHeader : line.type ≠ .lineSection)
    (ends : EndsAt more (p + (chunk.body ++ chunk.gap).length) chunks empty) :
    EndsAt more p (chunk :: chunks) empty := by
  obtain ⟨front, last, back, rfl, inside, rfl⟩ := ends
  have isEntry := entry_of_reading read
  refine ⟨chunk :: front, last, back, rfl, ?_, ?_⟩
  · intro member mem
    have follows : ((more || !back.isEmpty) || !(front ++ [last]).isEmpty) = true := by simp
    have followsHere : (more || !(front ++ last :: back).isEmpty) = true := by simp
    rw [List.cons_append, entries, List.mem_cons, follows] at mem
    rw [followsHere] at isEntry
    rcases mem with rfl | later
    · exact ⟨line.type, line.content, isEntry, noHeader⟩
    · exact inside member later
  · simp only [textOf_cons, List.length_append]
    omega

theorem EndsAt.here {more : Bool} {p : Nat} {chunk : Chunk} {chunks : List Chunk} {line : LineRead}
    (read : reading chunk (more || !chunks.isEmpty) = .ok line) (noHeader : line.type ≠ .lineSection) :
    EndsAt more p (chunk :: chunks) (p + line.nextline) := by
  have next := finishAt_nextline read
  refine ⟨[], chunk, chunks, rfl, ?_, ?_⟩
  · intro member mem
    simp only [List.nil_append, entries, List.isEmpty_nil, Bool.not_true, Bool.or_false,
      List.mem_singleton] at mem
    rw [mem]
    exact ⟨line.type, line.content, entry_of_reading read, noHeader⟩
  · simp only [textOf, List.flatMap_nil, List.length_nil, Nat.add_zero]
    omega

/-- Once a section has begun, the search ends behind the last line of the section that was used. -/
theorem scanSection_begun {sect : Text} {more : Bool} {p : Nat} {chunks : List Chunk} {state : Reached}
    {result : ForInStep Reached} (begun : state.found = true)
    (scan : scanChunks (searchBody sect) more p chunks state = .ok result) :
    (leave result).found = true ∧ (leave result).cont1 = state.cont1 ∧
      ((leave result).empty = state.empty ∨ EndsAt more p chunks (leave result).empty) := by
  induction chunks generalizing p state with
  | nil =>
    cases scan
    exact ⟨begun, rfl, .inl rfl⟩
  | cons chunk chunks inductionHypothesis =>
    obtain ⟨line, read, leaves⟩ := scanChunks_cons scan
    obtain ⟨_, ends⟩ | ⟨noHeader, after, passes, still, sameStart, empty⟩ := searchBody_begun p line begun
    · -- the next header ends the section and with it the search
      rw [ends] at leaves
      obtain ⟨_, step, rfl⟩ | ⟨_, step, _⟩ := leaves
      · cases step
        exact ⟨begun, rfl, .inl rfl⟩
      · cases step
    · rw [passes] at leaves
      obtain ⟨_, step, _⟩ | ⟨_, step, rest⟩ := leaves
      · cases step
      · cases step
        obtain ⟨found, cont1, here | later⟩ := inductionHypothesis still rest
        · -- no later line was used: the end is where this line left it
          refine ⟨found, cont1.trans sameStart, ?_⟩
          rcases empty with kept | moved
          · exact .inl (here.trans kept)
          · exact .inr (here.trans moved ▸ .here read noHeader)
        · exact ⟨found, cont1.trans sameStart, .inr (.cons read noHeader later)⟩

/-- A section: the lines before its header, the header and the lines behind it. -/
structure Section (sect : Text) (more : Bool) (chunks : List Chunk) where
  pre : List Chunk
  header : Chunk
  rest : List Chunk
  shape : chunks = pre ++ header :: rest
  before : ∀ read ∈ entries true pre, NotOpens sect read
  opens : Opens sect (entry header (more || !rest.isEmpty))

namespace Section

variable {sect : Text} {more : Bool} {chunks : List Chunk}

/-- Where the lines of the section begin, for a text that begins at `p`. -/
def start (found : Section sect more chunks) (p : Nat) : Nat :=
  p + (textOf found.pre).length + found.header.body.length +
    (lineEnd (more || !found.rest.isEmpty) found.header.gap).1

/-- Where the chunk behind the header begins. -/
def behind (found : Section sect more chunks) (p : Nat) : Nat :=
  p + (textOf found.pre).length + (found.header.body ++ found.header.gap).length

/-- A line before the section. -/
def cons (found : Section sect more chunks) {chunk : Chunk} (notOpens : NotOpens sect (entry chunk true)) :
    Section sect more (chunk :: chunks) where
  pre := chunk :: found.pre
  header := found.header
  rest := found.rest
  shape := by simp [found.shape]
  before := by
    intro read mem
    simp only [entries, Bool.true_or, List.mem_cons] at mem
    rcases mem with rfl | later
    · exact notOpens
    · exact found.before read later
  opens := found.opens

theorem follows (found : Section sect more chunks) : (more || !chunks.isEmpty) = true := by
  rw [found.shape]
  simp

theorem start_cons (found : Section sect more chunks) {chunk : Chunk}
    (notOpens : NotOpens sect (entry chunk true))
    (p : Nat) : (found.cons notOpens).start p = found.start (p + (chunk.body ++ chunk.gap).length) := by
  simp only [start, cons, textOf_cons, List.length_append]
  omega

theorem behind_cons (found : Section sect more chunks) {chunk : Chunk}
    (notOpens : NotOpens sect (entry chunk true))
    (p : Nat) : (found.cons notOpens).behind p = found.behind (p + (chunk.body ++ chunk.gap).length) := by
  simp only [behind, cons, textOf_cons, List.length_append]
  omega

end Section

/-- The search without a header of that name sees every line, and with one stops in its section. -/
theorem scanSection {sect : Text} {more : Bool} {p : Nat} {chunks : List Chunk} {state : Reached}
    {result : ForInStep Reached} (outside : state.found = false)
    (scan : scanChunks (searchBody sect) more p chunks state = .ok result) :
    ((leave result).found = false ∧ ∀ read ∈ entries more chunks, NotOpens sect read) ∨
      ∃ found : Section sect more chunks, (leave result).found = true ∧ (leave result).cont1 = found.start p ∧
        ((leave result).empty = found.start p ∨
          EndsAt more (found.behind p) found.rest (leave result).empty) := by
  induction chunks generalizing p state with
  | nil =>
    cases scan
    exact .inl ⟨outside, by simp [entries]⟩
  | cons chunk chunks inductionHypothesis =>
    obtain ⟨line, read, leaves⟩ := scanChunks_cons scan
    have isEntry := entry_of_reading read
    have next := finishAt_nextline read
    obtain ⟨header, same, opens⟩ | ⟨other, after, passes, still⟩ := searchBody_outside p line outside
    · rw [opens] at leaves
      obtain ⟨_, step, _⟩ | ⟨after, step, rest⟩ := leaves
      · cases step
      · cases step
        have begun := scanSection_begun rfl rest
        refine .inr ⟨⟨[], chunk, chunks, rfl, by simp [entries], line.content, ?_, same⟩, begun.1, ?_, ?_⟩
        · rw [isEntry, header]
        · rw [begun.2.1]
          simp [Section.start, textOf, next, Nat.add_assoc]
        · rcases begun.2.2 with here | later
          · refine .inl ?_
            rw [here]
            simp [Section.start, textOf, next, Nat.add_assoc]
          · exact .inr (by simpa [Section.behind, textOf] using later)
    · -- a line that does not open the section stands before it, or before the end of the text
      have notOpens : NotOpens sect (entry chunk (more || !chunks.isEmpty)) := ⟨_, _, isEntry, other⟩
      rw [passes] at leaves
      obtain ⟨_, step, _⟩ | ⟨_, step, rest⟩ := leaves
      · cases step
      · cases step
        rcases inductionHypothesis still rest with ⟨none, before⟩ | ⟨found, begun, cont1, ends⟩
        · refine .inl ⟨none, ?_⟩
          intro member mem
          rw [entries, List.mem_cons] at mem
          rcases mem with rfl | later
          · exact notOpens
          · exact before member later
        · rw [found.follows] at notOpens
          refine .inr ⟨found.cons notOpens, begun, ?_, ?_⟩
          · rw [cont1, found.start_cons]
          · rw [found.start_cons, found.behind_cons]
            exact ends

/-- What `FindSection` says about a text of chunks. -/
theorem findSection_chunks {lead : Text} {chunks : List Chunk} {sect : Text} {answer : Option FoundSection}
    (ends : ∀ c ∈ lead, isEnd c = true) (spaced : Spaced chunks)
    (search : findSection (lead ++ textOf chunks) (some sect) = .ok answer) :
    (answer = none ∧ ∀ read ∈ entries false chunks, NotOpens sect read) ∨
      ∃ (found : Section sect false chunks) (place : FoundSection), answer = some place ∧
        place.cont1 = found.start lead.length ∧
        (place.cont2 = place.cont1 ∨ EndsAt false (found.behind lead.length) found.rest place.cont2) := by
  have skips : SkipsEmpty (searchBody sect) :=
    fun state p line isEmpty => searchBody_passes (by simp [isEmpty]) (by simp [isEmpty])
  have same := scanLines_map (searchBody_follows sect) 0 (lead ++ textOf chunks) {}
  rw [scanLines_gap skips ends (startsLine_textOf chunks), scanLines_chunks skips spaced] at same
  rw [findSection] at search
  cases lines : scanLines (findSectionBody (some sect)) 0 (lead ++ textOf chunks) {} with
  | error fault =>
    rw [lines] at search
    cases search
  | ok state =>
    rw [lines] at same search
    cases scan : scanChunks (searchBody sect) false (0 + lead.length) chunks (reached {}) with
    | error fault =>
      rw [scan] at same
      cases same
    | ok result =>
      rw [scan] at same
      have final : reached state = leave result := by
        simpa [Except.map] using same
      have answers := scanSection rfl scan
      rw [← final, Nat.zero_add] at answers
      simp only [bind, Except.bind] at search
      rcases answers with ⟨none, before⟩ | ⟨found, begun, cont1, empty⟩
      · rw [show state.found = false from none] at search
        cases search
        exact .inl ⟨rfl, before⟩
      · rw [show state.found = true from begun] at search
        cases search
        refine .inr ⟨found, _, rfl, cont1, ?_⟩
        rcases empty with here | later
        · exact .inl (here.trans cont1.symm)
        · exact .inr later

end CallCenter.Verified.IniLookup
