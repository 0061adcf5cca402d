import CallCenter.Verified.IniLookup

/-!
# A value that was set is read back

`iniSetString` splices new text into the buffer at the pointers `GetLine` gave.  When the lines next
to it are read as before, the new value is found and every other lookup keeps its answer.  `GetLine`
looks past the end of a line, though, and counts characters that do not belong to it, so what
follows a line may change how it is read.
-/

namespace CallCenter.Verified.IniSetGet

open CallCenter.Foundation (Text)
open CallCenter.Foundation.Text
open CallCenter.Model CallCenter.Model.Inirw
open CallCenter.Verified.IniLines CallCenter.Verified.IniLookup

/-! ## Names and values -/

/-- A sign that starts a remark. -/
def isSign (c : Char) : Bool := c == ';' || c == '#'

/-- A character of a name or a value. -/
structure Letter (c : Char) : Prop where
  ordinary : isEnd c = false
  noSign : isSign c = false
  noQuote : c ≠ '\x27' ∧ c ≠ '\x22'

/-- A section name, a key or a value: no line end, zero byte, remark, `=`, quote or bracket. -/
structure Word (word : Text) : Prop where
  nonempty : word ≠ []
  trimmed : Trimmed word
  letters : ∀ c ∈ word, Letter c
  noEquals : '=' ∉ word
  noBrackets : '[' ∉ word ∧ ']' ∉ word

theorem word_singleton {c : Char} (letter : Letter c) (visible : isspace c = false)
    (noSyntax : '=' ≠ c ∧ '[' ≠ c ∧ ']' ≠ c) : Word [c] where
  nonempty := by simp
  trimmed := trimmed_singleton visible
  letters := by
    intro d mem
    rwa [List.mem_singleton.mp mem]
  noEquals := by simpa using noSyntax.1
  noBrackets := by simpa using noSyntax.2

/-! ## Scanning letters -/

theorem visit_letter {c : Char} (letter : Letter c) (s : LineScan) (p : Nat) :
    s.visit p c =
      if isspace c then { s with cntblank := s.cntblank + 1 }
      else { s with cntblank := 0, cont1 := if s.rem1 = none ∧ s.cont1 = none then some p else s.cont1 } := by
  have notCR : c ≠ '\r' := by
    rintro rfl
    exact absurd letter.ordinary (by decide)
  have notLF : c ≠ '\n' := by
    rintro rfl
    exact absurd letter.ordinary (by decide)
  have noSign : ¬ (c = ';' ∨ c = '#') := by
    rintro (rfl | rfl) <;> exact absurd letter.noSign (by decide)
  rw [LineScan.visit, if_neg notCR, if_neg notLF, if_neg letter.noQuote.1, if_neg letter.noQuote.2,
    if_neg noSign]

theorem visitAll_append (s : LineScan) (p : Nat) (front back : Text) :
    visitAll s p (front ++ back) = visitAll (visitAll s p front) (p + front.length) back := by
  induction front generalizing s p with
  | nil => rfl
  | cons c front inductionHypothesis =>
    rw [List.cons_append, visitAll, inductionHypothesis]
    simp only [visitAll, List.length_cons]
    congr 1
    omega

/-- Letters behind the start of the content move the count of blanks only. -/
theorem visitAll_letters {text : Text} (letters : ∀ c ∈ text, Letter c) {s : LineScan} {cont1 : Nat}
    (begun : s.cont1 = some cont1) (p : Nat) : ∃ blanks, visitAll s p text = { s with cntblank := blanks } := by
  induction text generalizing s p with
  | nil => exact ⟨s.cntblank, rfl⟩
  | cons c text inductionHypothesis =>
    have same : s.visit p c = { s with cntblank := if isspace c then s.cntblank + 1 else 0 } := by
      rw [visit_letter (letters c List.mem_cons_self)]
      split
      · rfl
      · simp [begun]
    obtain ⟨blanks, rest⟩ := @inductionHypothesis (fun d mem => letters d (List.mem_cons_of_mem _ mem))
        (s.visit p c)
      (by rw [same]; exact begun) (p + 1)
    refine ⟨blanks, ?_⟩
    rw [visitAll, rest, same]

/-- A trimmed text of letters is content from its first character to its last. -/
theorem visitAll_word {text : Text} (nonempty : text ≠ []) (trimmed : Trimmed text)
    (letters : ∀ c ∈ text, Letter c) :
    visitAll {} 0 text = { cont1 := some 0 } := by
  cases text with
  | nil => exact absurd rfl nonempty
  | cons c text =>
    have first := trimmed.head c rfl
    have start : LineScan.visit {} 0 c = { cont1 := some 0 } := by
      rw [visit_letter (letters c List.mem_cons_self), if_neg (by simp [first])]
      rfl
    rw [visitAll, start]
    cases text using List.reverseRecOn with
    | nil => rfl
    | append_singleton text d =>
      have last : isspace d = false := by
        refine trimmed.last d ?_
        rw [← List.cons_append, List.getLast?_concat]
      obtain ⟨blanks, middle⟩ := @visitAll_letters text (fun e mem => letters e (by simp [mem]))
          { cont1 := some 0 } 0
        rfl (0 + 1)
      have isLetter : Letter d := letters d (by simp)
      rw [visitAll_append, middle, visitAll, visitAll, visit_letter isLetter, if_neg (by simp [last])]
      rfl

/-! ## New lines -/

/-- The content of a line that sets a value. -/
def setting (key value : Text) : Text := key ++ ['='] ++ value

theorem letter_equals : Letter '=' := ⟨by decide, by decide, by decide, by decide⟩

theorem setting_letters {key value : Text} (isKey : Word key) (isValue : Word value) :
    ∀ c ∈ setting key value, Letter c := by
  intro c mem
  simp only [setting, List.mem_append, List.mem_singleton] at mem
  rcases mem with (inKey | rfl) | inValue
  · exact isKey.letters c inKey
  · exact letter_equals
  · exact isValue.letters c inValue

theorem setting_trimmed {key value : Text} (isKey : Word key) (isValue : Word value) :
    Trimmed (setting key value) :=
  (isKey.trimmed.append (trimmed_singleton (by decide))).append isValue.trimmed

theorem setting_nonempty (key value : Text) : setting key value ≠ [] := by simp [setting]

theorem visitAll_setting {key value : Text} (isKey : Word key) (isValue : Word value) :
    visitAll {} 0 (setting key value) = { cont1 := some 0 } :=
  visitAll_word (setting_nonempty key value) (setting_trimmed isKey isValue) (setting_letters isKey isValue)

/-- The entry of a line that sets the value. -/
def settingEntry (key value : Text) : Except Fault Entry := .ok (.lineValue, setting key value)

theorem cString_setting {key value : Text} (isKey : Word key) (isValue : Word value) :
    cString (setting key value) = setting key value := by
  rw [cString, List.takeWhile_eq_self_iff]
  intro c mem
  have ordinary := (setting_letters isKey isValue c mem).ordinary
  simpa using ne_zero_of_ordinary ordinary

theorem getKeyValue_setting {key value : Text} (isKey : Word key) (isValue : Word value) :
    getKeyValue (setting key value) = (key, value) := by
  have before : ∀ c ∈ key, decide (c ≠ '=') = true := by
    intro c mem
    simpa using ne_of_mem_of_not_mem mem isKey.noEquals
  rw [getKeyValue, cString_setting isKey isValue, setting, List.append_assoc,
    List.takeWhile_append_of_pos before,
    List.dropWhile_append_of_pos before]
  simp [trim_of_trimmed isKey.trimmed, trim_of_trimmed isValue.trimmed]

theorem lineType_setting {key value : Text} (isKey : Word key) (isValue : Word value) :
    lineType (setting key value) = .lineValue := by
  have noHeader : (setting key value).head? ≠ some '[' := by
    obtain ⟨c, rest, shape⟩ := List.exists_cons_of_ne_nil isKey.nonempty
    intro first
    rw [setting, shape] at first
    cases first
    exact isKey.noBrackets.1 (by simp [shape])
  have equals : '=' ∈ cString (setting key value) := by
    rw [cString_setting isKey isValue]
    simp [setting]
  rw [lineType, if_neg (fun header => noHeader header.1), if_pos equals]

/-- The content is cut out of a line that begins with it. -/
theorem contentAt_begin {text : Text} (fits : text.length < sizeLine) {s : LineScan} (start : s.cont1 = some 0)
    (noBlank : s.cntblank = 0) (rest : Text) :
    contentAt s text.length (text ++ rest) = .ok (lineType text, text) := by
  rw [contentAt, start]
  dsimp only
  have length : ((text.length : Int) - s.cntblank - (0 : Nat)).toNat = text.length := by omega
  have shown : ((text ++ rest).drop 0).take text.length = text := by simp
  rw [if_neg (by omega), if_neg (by omega), length, shown]

theorem contentAt_setting {key value : Text} (isKey : Word key) (isValue : Word value)
    (fits : (setting key value).length < sizeLine) {s : LineScan} (start : s.cont1 = some 0)
    (noBlank : s.cntblank = 0)
    (rest : Text) : contentAt s (setting key value).length (setting key value ++ rest) =
      settingEntry key value := by
  rw [contentAt_begin fits start noBlank, lineType_setting isKey isValue, settingEntry]

theorem settingEntry_sets {key value : Text} (isKey : Word key) (isValue : Word value) :
    Sets key (settingEntry key value) :=
  ⟨setting key value, rfl, by rw [getKeyValue_setting isKey isValue]; simp [striCmp]⟩

theorem setting_ordinary {key value : Text} (isKey : Word key) (isValue : Word value) :
    ∀ c ∈ setting key value, isEnd c = false :=
  fun c mem => (setting_letters isKey isValue c mem).ordinary

/-- A new line as `iniSetString` writes it, with an empty remark. -/
def newChunk {key value : Text} (isKey : Word key) (isValue : Word value) (gap : Text)
    (ends : ∀ c ∈ gap, isEnd c = true) : Chunk where
  body := setting key value ++ [';']
  gap := gap
  nonempty := by simp
  ordinary := by
    intro c mem
    rcases List.mem_append.mp mem with inSetting | sign
    · exact setting_ordinary isKey isValue c inSetting
    · rw [List.mem_singleton.mp sign]
      rfl
  ends := ends

theorem entry_newChunk {key value : Text} (isKey : Word key) (isValue : Word value)
    (fits : (setting key value).length < sizeLine) (gap : Text) (ends : ∀ c ∈ gap, isEnd c = true)
    (more : Bool) :
    entry (newChunk isKey isValue gap ends) more = settingEntry key value := by
  have scan : visitAll {} 0 (setting key value ++ [';']) =
      { cont1 := some 0, rem1 := some (setting key value).length } := by
    rw [visitAll_append, visitAll_setting isKey isValue, Nat.zero_add]
    rfl
  have remark : (visitAll {} 0 (newChunk isKey isValue gap ends).body).rem1 =
      some (setting key value).length := by
    rw [newChunk, scan]
  rw [entry_remark remark, newChunk, scan]
  exact contentAt_setting isKey isValue fits rfl rfl [';']

/-- The header `iniSetString` writes. -/
def headerChunk {sect : Text} (isSect : Word sect) : Chunk where
  body := ['['] ++ sect ++ [']']
  gap := ['\r', '\n']
  nonempty := by simp
  ordinary := by
    intro c mem
    simp only [List.mem_append, List.mem_singleton] at mem
    rcases mem with (rfl | inName) | rfl
    · rfl
    · exact (isSect.letters c inName).ordinary
    · rfl
  ends := by simp [isEnd]

theorem visitAll_header {sect : Text} (isSect : Word sect) :
    visitAll {} 0 (headerChunk isSect).body = { cont1 := some 0 } := by
  refine visitAll_word (headerChunk isSect).nonempty ?_ ?_
  · exact ((trimmed_singleton (by decide)).append isSect.trimmed).append (trimmed_singleton (by decide))
  · intro c mem
    simp only [headerChunk, List.mem_append, List.mem_singleton] at mem
    rcases mem with (rfl | inName) | rfl
    · exact ⟨by decide, by decide, by decide, by decide⟩
    · exact isSect.letters c inName
    · exact ⟨by decide, by decide, by decide, by decide⟩

theorem lineType_header {sect : Text} (isSect : Word sect) :
    lineType (headerChunk isSect).body = .lineSection := by
  have last : (['['] ++ sect ++ [']']).getLast? = some ']' := List.getLast?_concat
  rw [lineType, headerChunk, if_pos ⟨rfl, last⟩]

theorem opens_header {sect : Text} (isSect : Word sect) (fits : sect.length + 2 < sizeLine) :
    Opens sect (entry (headerChunk isSect) true) := by
  have bare : (visitAll {} 0 (headerChunk isSect).body).rem1 = none := by rw [visitAll_header]
  have atEnd : (lineEnd true (headerChunk isSect).gap).2 = 0 := rfl
  have short : (headerChunk isSect).body.length < sizeLine := by
    simp only [headerChunk, List.length_append, List.length_singleton]
    omega
  have content := contentAt_begin short (congrArg LineScan.cont1 (visitAll_header isSect))
    (congrArg LineScan.cntblank (visitAll_header isSect)) []
  rw [List.append_nil, lineType_header] at content
  refine ⟨(headerChunk isSect).body, ?_, ?_⟩
  · rw [entry_bare bare (Int.le_of_eq atEnd), atEnd, Int.add_zero]
    exact content
  · have name : sectionName (headerChunk isSect).body = sect := by
      rw [sectionName, headerChunk, List.dropLast_concat]
      exact trim_of_trimmed isSect.trimmed
    rw [name]
    simp [striCmp]

/-! ## What a splice may not disturb -/

/-- How far behind its body `GetLine` puts the end of a line that goes on with this text. -/
def endAt (tail : Text) : Int := (lineEnd (!(tail.dropWhile isEnd).isEmpty) (tail.takeWhile isEnd)).2

/-- The gap a text ends in, and the body before it. -/
def lastGap (front : Text) : Text := front.rtakeWhile isEnd

def lastBody (front : Text) : Text := (front.rdropWhile isEnd).rtakeWhile fun c => !isEnd c

/-- With `new` behind it instead of `old`, the last line of a text is read the same: it has a remark,
or nothing at all, or its end is found at the same place. -/
def undisturbed (front old new : Text) : Bool :=
  let scan := visitAll {} 0 (lastBody front)
  scan.rem1.isSome || scan.cont1.isNone || endAt (lastGap front ++ new) == endAt (lastGap front ++ old)

theorem endAt_append {gap rest : Text} (ends : ∀ c ∈ gap, isEnd c = true) (starts : StartsLine rest) :
    endAt (gap ++ rest) = (lineEnd (!rest.isEmpty) gap).2 := by
  have noMore : rest.takeWhile isEnd = [] ∧ rest.dropWhile isEnd = rest := by
    cases rest with
    | nil => exact ⟨rfl, rfl⟩
    | cons c rest =>
      have first := starts c rfl
      exact ⟨List.takeWhile_cons_of_neg (by simp [first]), List.dropWhile_cons_of_neg (by simp [first])⟩
  rw [endAt, List.takeWhile_append_of_pos ends, List.dropWhile_append_of_pos ends, noMore.1, noMore.2,
    List.append_nil]

/-- A text that is over or has just ended a line. -/
def EndsLine (text : Text) : Prop := ∀ c, text.getLast? = some c → isEnd c = true

theorem rtakeWhile_append {p : Char → Bool} {front back : Text} (back_ : ∀ c ∈ back, p c = true)
    (front_ : ∀ c, front.getLast? = some c → p c = false) :
    (front ++ back).rtakeWhile p = back ∧ (front ++ back).rdropWhile p = front := by
  have all : ∀ c ∈ back.reverse, p c = true := fun c mem => back_ c (List.mem_reverse.mp mem)
  have none : front.reverse.takeWhile p = [] ∧ front.reverse.dropWhile p = front.reverse := by
    cases front using List.reverseRecOn with
    | nil => exact ⟨rfl, rfl⟩
    | append_singleton front c =>
      have last := front_ c List.getLast?_concat
      rw [List.reverse_append, List.reverse_singleton, List.singleton_append]
      exact ⟨List.takeWhile_cons_of_neg (by simp [last]), List.dropWhile_cons_of_neg (by simp [last])⟩
  rw [List.rtakeWhile, List.rdropWhile, List.reverse_append, List.takeWhile_append_of_pos all,
    List.dropWhile_append_of_pos all, none.1, none.2]
  simp

theorem last_chunk {front : Text} (endsLine : EndsLine front) (chunk : Chunk) :
    lastGap (front ++ chunk.body ++ chunk.gap) = chunk.gap ∧
      lastBody (front ++ chunk.body ++ chunk.gap) = chunk.body := by
  have bodyLast : ∀ c, (front ++ chunk.body).getLast? = some c → isEnd c = false := by
    intro c last
    rw [List.getLast?_append_of_ne_nil _ chunk.nonempty] at last
    exact chunk.ordinary c (List.mem_of_getLast? last)
  have gap := rtakeWhile_append chunk.ends bodyLast
  have body := @rtakeWhile_append (fun c => !isEnd c) front chunk.body
      (fun c mem => by simp [chunk.ordinary c mem])
    (fun c last => by simp [endsLine c last])
  exact ⟨gap.1, by rw [lastBody, gap.2, body.1]⟩

theorem spaced_append {front back : List Chunk} {chunk : Chunk} :
    Spaced (front ++ chunk :: back) ↔
      (∀ before ∈ front, before.gap ≠ []) ∧ (back ≠ [] → chunk.gap ≠ []) ∧ Spaced back := by
  induction front with
  | nil => simp [Spaced]
  | cons first front inductionHypothesis =>
    rw [List.cons_append, Spaced, inductionHypothesis]
    simp [and_assoc]

theorem endsLine_textOf {lead : Text} {front : List Chunk} (ends : ∀ c ∈ lead, isEnd c = true)
    (gaps : ∀ before ∈ front, before.gap ≠ []) : EndsLine (lead ++ textOf front) := by
  intro c last
  cases front using List.reverseRecOn with
  | nil =>
    rw [textOf, List.flatMap_nil, List.append_nil] at last
    exact ends c (List.mem_of_getLast? last)
  | append_singleton front chunk =>
    have nonempty : chunk.gap ≠ [] := gaps chunk (by simp)
    rw [textOf_append, textOf_cons, show textOf [] = [] from rfl, List.append_nil, ← List.append_assoc,
      ← List.append_assoc, List.getLast?_append_of_ne_nil _ nonempty] at last
    exact chunk.ends c (List.mem_of_getLast? last)

/-- The new value is found, and the lookups of other pairs keep their answers. -/
def Sees (before after : Text) (sect key value : Text) : Prop :=
  findValue after (some sect) key = .ok (some value) ∧
    ∀ other otherKey, Apart sect key other otherKey →
      findValue after other otherKey = findValue before other otherKey

theorem lookup_setting {key value : Text} (isKey : Word key) (isValue : Word value) (sect : Text)
    (rest : List (Except Fault Entry)) :
    lookup (some sect) key true (settingEntry key value :: rest) = .ok (some value) := by
  have same : striCmp key key = true := by simp [striCmp]
  simp [settingEntry, getKeyValue_setting isKey isValue, same, isValue.nonempty]

/-- The lookups in a text with a new line in the section, behind lines that do not set the key. -/
theorem sees_of_entries {sect key value before after : Text} (isKey : Word key) (isValue : Word value)
    {pre mid rest : List (Except Fault Entry)} {header : Except Fault Entry}
    (preceding : ∀ read ∈ pre, NotOpens sect read) (opens : Opens sect header)
    (inside : ∀ read ∈ mid, Inside read) (others : ∀ read ∈ mid, ¬ Sets key read)
    (new : ∀ other otherKey, findValue after other otherKey =
      lookup other otherKey false (pre ++ header :: (mid ++ settingEntry key value :: rest)))
    (old : ∀ other otherKey, Apart sect key other otherKey →
      findValue before other otherKey = lookup other otherKey false (pre ++ header :: (mid ++ rest))) :
    Sees before after sect key value := by
  refine ⟨?_, fun other otherKey apart => ?_⟩
  · rw [new, lookup_notOpens preceding, lookup_opens opens, lookup_inside inside others,
      lookup_setting isKey isValue]
  · rw [new, old other otherKey apart]
    exact lookup_congr (lookup_apart apart opens inside (settingEntry_sets isKey isValue) rest) pre false

/-! ### A new section -/

def lineFeed : Text := ['\r', '\n']

theorem ends_lineFeed : ∀ c ∈ lineFeed, isEnd c = true := by simp [lineFeed, isEnd]

/-- The end of the file grows by a line end, and is read as before. -/
theorem extend_end {lead : Text} {chunks : List Chunk} (ends : ∀ c ∈ lead, isEnd c = true)
    (spaced : Spaced chunks) {rest : Text} (starts : StartsLine rest) (nonempty : rest ≠ [])
    (clean : undisturbed (lead ++ textOf chunks) [] (lineFeed ++ rest) = true) :
    ∃ (longer : Text) (extended : List Chunk), (∀ c ∈ longer, isEnd c = true) ∧
      (∀ chunk ∈ extended, chunk.gap ≠ []) ∧ longer ++ textOf extended = lead ++ textOf chunks ++ lineFeed ∧
      entries true extended = entries false chunks := by
  cases chunks using List.reverseRecOn with
  | nil =>
    refine ⟨lead ++ lineFeed, [], ?_, by simp, by simp [textOf], rfl⟩
    intro c mem
    rcases List.mem_append.mp mem with inLead | new
    · exact ends c inLead
    · exact ends_lineFeed c new
  | append_singleton chunks last =>
    obtain ⟨gaps, _⟩ := spaced_append.mp spaced
    have longGap : ∀ c ∈ last.gap ++ lineFeed, isEnd c = true := by
      intro c mem
      rcases List.mem_append.mp mem with inGap | new
      · exact last.ends c inGap
      · exact ends_lineFeed c new
    have shape : lead ++ textOf (chunks ++ [last]) = lead ++ textOf chunks ++ last.body ++ last.gap := by
      simp [textOf]
    have place := last_chunk (endsLine_textOf ends gaps) last
    have more : rest.isEmpty = false := by simpa using nonempty
    have now := @endAt_append (last.gap ++ lineFeed) rest longGap starts
    have before := @endAt_append last.gap [] last.ends (by intro c first; cases first)
    rw [undisturbed, shape, place.1, place.2, ← List.append_assoc, now, before, more] at clean
    refine ⟨lead, chunks ++ [{ last with gap := last.gap ++ lineFeed, ends := longGap }], ends, ?_, ?_, ?_⟩
    · intro chunk mem
      rcases List.mem_append.mp mem with earlier | isLast
      · exact gaps chunk earlier
      · rw [List.mem_singleton.mp isLast]
        simp [lineFeed]
    · simp [textOf]
    · rw [entries_append, entries_append]
      have same : entry last false = entry { last with gap := last.gap ++ lineFeed, ends := longGap } true := by
        refine entry_prefix rfl (List.prefix_append _ _) ?_
        simp only [Bool.or_eq_true, beq_iff_eq, Option.isNone_iff_eq_none] at clean
        rcases clean with (remark | blank) | sameEnd
        · exact .inl remark
        · exact .inr (.inl blank)
        · exact .inr (.inr sameEnd.symm)
      simp [entries, same]

/-- What `iniSetString` writes for a section that is not there. -/
def sectionText (sect key value : Text) : Text :=
  "\r\n[".toList ++ sect ++ "]\r\n".toList ++ (setting key value ++ ";\r\n".toList)

theorem sees_newSection {sect key value : Text} (isSect : Word sect) (isKey : Word key) (isValue : Word value)
    (sectFits : sect.length + 2 < sizeLine) (fits : (setting key value).length < sizeLine) {buffer : Text}
    (search : findSection buffer (some sect) = .ok none)
    (clean : undisturbed buffer [] (sectionText sect key value) = true) :
    Sees buffer (buffer ++ sectionText sect key value) sect key value := by
  obtain ⟨lead, chunks, ends, spaced, rfl⟩ := exists_chunks buffer
  obtain ⟨_, before⟩ | ⟨_, place, some, _⟩ := findSection_chunks ends spaced search
  · -- The text behind the line end is the header and the new line.
    have written : sectionText sect key value =
        lineFeed ++ textOf [headerChunk isSect, newChunk isKey isValue lineFeed ends_lineFeed] := by
      simp [sectionText, lineFeed, textOf, headerChunk, newChunk, setting]
    rw [written] at clean ⊢
    have nonempty : textOf [headerChunk isSect, newChunk isKey isValue lineFeed ends_lineFeed] ≠ [] := by
      simp [textOf, newChunk]
    obtain ⟨longer, extended, longEnds, gaps, same, reads⟩ :=
      extend_end ends spaced (startsLine_textOf _) nonempty clean
    have newSpaced : Spaced (extended ++ [headerChunk isSect, newChunk isKey isValue lineFeed ends_lineFeed]) :=
      spaced_append.mpr ⟨gaps, by simp [headerChunk], by simp [newChunk, lineFeed, Spaced]⟩
    have text : lead ++ textOf chunks ++
        (lineFeed ++ textOf [headerChunk isSect, newChunk isKey isValue lineFeed ends_lineFeed]) =
        longer ++ textOf (extended ++ [headerChunk isSect, newChunk isKey isValue lineFeed ends_lineFeed]) := by
      rw [← List.append_assoc, ← same, textOf_append, List.append_assoc]
    have newEntries : entries false
        (extended ++ [headerChunk isSect, newChunk isKey isValue lineFeed ends_lineFeed]) =
        entries false chunks ++ entry (headerChunk isSect) true :: ([] ++ settingEntry key value :: []) := by
      rw [entries_append, ← reads]
      simp [entries, entry_newChunk isKey isValue fits]
    rw [text]
    refine @sees_of_entries sect key value _ _ isKey isValue (entries false chunks) [] [] _ before
      (opens_header isSect sectFits) (by simp) (by simp) ?_ ?_
    · intro other otherKey
      rw [findValue_eq longEnds newSpaced, newEntries]
    · intro other otherKey _
      rw [findValue_eq ends spaced]
      -- A header at the end of the text changes no answer.
      obtain ⟨content, isHeader, _⟩ := opens_header isSect sectFits
      have closes : ∀ found, lookup other otherKey found [] =
          lookup other otherKey found [entry (headerChunk isSect) true] := by
        intro found
        rw [isHeader]
        cases other with
        | none => rfl
        | some name => cases found <;> rfl
      simpa using lookup_congr closes (entries false chunks) false
  · cases some

/-! ### The lines of the section -/

/-- A chunk with the beginning of its gap. -/
def cut (chunk : Chunk) (n : Nat) : Chunk :=
  { chunk with gap := chunk.gap.take n, ends := fun c mem => chunk.ends c (List.mem_of_mem_take mem) }

/-- Where the gap is cut off behind the end of the line, the end of the line is the same, unless two
equal line ends made it come out too early. -/
theorem lineEnd_take (more : Bool) (gap : Text) :
    (lineEnd false (gap.take (lineEnd more gap).1)).1 = (lineEnd more gap).1 ∧
      ((lineEnd more gap).2 ≠ -1 →
        (lineEnd false (gap.take (lineEnd more gap).1)).2 = (lineEnd more gap).2) ∧
      ((lineEnd more gap).2 = -1 → (lineEnd true (gap.take (lineEnd more gap).1)).2 ≠ -1) := by
  fun_cases lineEnd more gap <;> simp_all [lineEnd]

theorem findKeyBody_skips (key : Text) : SkipsEmpty (findKeyBody key) := by
  intro state p line isEmpty
  simp only [findKeyBody, isEmpty]

/-- The search for the key ends at the first line that sets it. -/
theorem scanKey {key : Text} {more : Bool} {p : Nat} {chunks : List Chunk}
    {result : ForInStep (Option (Nat × LineRead))}
    (scan : scanChunks (findKeyBody key) more p chunks none = .ok result) :
    (leave result = none ∧ ∀ read ∈ entries more chunks, ¬ Sets key read) ∨
      ∃ front chunk back line, chunks = front ++ chunk :: back ∧
        (∀ read ∈ entries true front, ¬ Sets key read) ∧
        reading chunk (more || !back.isEmpty) = .ok line ∧ Sets key (entry chunk (more || !back.isEmpty)) ∧
        leave result = some (p + (textOf front).length, line) := by
  induction chunks generalizing p with
  | nil =>
    cases scan
    exact .inl ⟨rfl, by simp [entries]⟩
  | cons chunk chunks inductionHypothesis =>
    obtain ⟨line, read, leaves⟩ := scanChunks_cons scan
    have isEntry := entry_of_reading read
    by_cases sets : line.type = .lineValue ∧ striCmp (getKeyValue line.content).1 key = true
    · have step : findKeyBody key none p line = .ok (.done (some (p, line))) := by
        simp only [findKeyBody, sets.1, sets.2, if_true]
      rw [step] at leaves
      obtain ⟨_, same, rfl⟩ | ⟨_, same, _⟩ := leaves
      · cases same
        refine .inr ⟨[], chunk, chunks, line, rfl, by simp [entries], read, ?_, by simp [leave, textOf]⟩
        exact ⟨line.content, by rw [isEntry, sets.1], sets.2⟩
      · cases same
    · have step : findKeyBody key none p line = .ok (.yield none) := by
        cases type : line.type with
        | lineValue =>
          have differs : striCmp (getKeyValue line.content).1 key = false := by
            rw [← Bool.not_eq_true]
            exact fun same => sets ⟨type, same⟩
          simp only [findKeyBody, type, differs, Bool.false_eq_true, if_false]
        | lineIdle | lineError | lineEmpty | lineSection => simp only [findKeyBody, type]
      have notSets : ¬ Sets key (entry chunk (more || !chunks.isEmpty)) := by
        rintro ⟨content, is, same⟩
        rw [isEntry, Except.ok.injEq, Prod.mk.injEq] at is
        exact sets ⟨is.1, by rwa [is.2]⟩
      rw [step] at leaves
      obtain ⟨_, same, _⟩ | ⟨after, same, rest⟩ := leaves
      · cases same
      · cases same
        rcases inductionHypothesis rest with ⟨none, others⟩ |
            ⟨front, found, back, line', rfl, before, read', sets', place⟩
        · refine .inl ⟨none, ?_⟩
          intro member mem
          rw [entries, List.mem_cons] at mem
          rcases mem with rfl | later
          · exact notSets
          · exact others member later
        · refine .inr ⟨chunk :: front, found, back, line', rfl, ?_, read', sets', ?_⟩
          · intro member mem
            have follows : (more || !(front ++ found :: back).isEmpty) = true := by simp
            rw [follows] at notSets
            simp only [entries, Bool.true_or, List.mem_cons] at mem
            rcases mem with rfl | later
            · exact notSets
            · exact before member later
          · rw [place, textOf_cons, @List.length_append _ (chunk.body ++ chunk.gap), Nat.add_assoc]

/-- `findKey` looks at the lines of the section, the last of them without what follows it. -/
theorem findKey_chunks {key : Text} {lead gap : Text} {front back : List Chunk} {last : Chunk} {buffer : Text}
    {place : FoundSection} {more : Bool} (ends : ∀ c ∈ gap, isEnd c = true)
    (gaps : ∀ chunk ∈ front, chunk.gap ≠ [])
    (text : buffer = lead ++ (gap ++ (textOf front ++ (last.body ++ last.gap ++ textOf back))))
    (cont1 : place.cont1 = lead.length)
    (cont2 : place.cont2 = lead.length + gap.length + (textOf front).length + last.body.length +
      (lineEnd more last.gap).1) :
    findKey buffer place key =
      (scanChunks (findKeyBody key) false (lead.length + gap.length)
        (front ++ [cut last (lineEnd more last.gap).1])
        none).map leave := by
  have bounds := @lineEnd_bounds last.gap more
  have taken : (buffer.drop place.cont1).take (place.cont2 - place.cont1) =
      gap ++ textOf (front ++ [cut last (lineEnd more last.gap).1]) := by
    have whole : gap ++ (textOf front ++ (last.body ++ last.gap ++ textOf back)) =
        (gap ++ textOf (front ++ [cut last (lineEnd more last.gap).1])) ++
          (last.gap.drop (lineEnd more last.gap).1 ++ textOf back) := by
      simp only [textOf_append, textOf_cons, cut, show textOf [] = [] from rfl,
        List.append_nil, List.append_assoc]
      rw [← List.append_assoc (last.gap.take _), List.take_append_drop]
    have length : place.cont2 - place.cont1 =
        (gap ++ textOf (front ++ [cut last (lineEnd more last.gap).1])).length := by
      simp only [textOf_append, textOf_cons, cut, show textOf [] = [] from rfl,
        List.append_nil, List.length_append, List.length_take]
      omega
    rw [length, text, cont1, List.drop_left, whole, List.take_left]
  have spaced : Spaced (front ++ [cut last (lineEnd more last.gap).1]) :=
    spaced_append.mpr ⟨gaps, fun empty => absurd rfl empty, trivial⟩
  have skips := findKeyBody_skips key
  rw [findKey, taken, cont1, scanLines_gap skips ends (startsLine_textOf _), scanLines_chunks skips spaced]

/-! ### A new line in a section -/

/-- What `iniSetString` writes for a key that is not there. -/
def itemText (key value : Text) : Text := setting key value ++ ";\r\n".toList

theorem startsLine_append {first rest : Text} (nonempty : first ≠ [])
    (ordinary : ∀ c ∈ first, isEnd c = false) :
    StartsLine (first ++ rest) := by
  intro c start
  cases first with
  | nil => exact absurd rfl nonempty
  | cons d first =>
    cases start
    exact ordinary c List.mem_cons_self

/-- The text behind a line, up to the splice and from there on. -/
theorem insert_line {key value lead : Text} {before after : List Chunk} {line : Chunk} (isKey : Word key)
    (isValue : Word value) (fits : (setting key value).length < sizeLine) (ends : ∀ c ∈ lead, isEnd c = true)
    (spaced : Spaced (before ++ line :: after)) {front old : Text} {n : Nat}
    (end_ : n = (lineEnd (!after.isEmpty) line.gap).1)
    (isFront : front = lead ++ textOf before ++ line.body ++ line.gap.take n)
    (isOld : old = line.gap.drop n ++ textOf after) (apart : lastGap front ≠ [])
    (clean : undisturbed front old (itemText key value) = true) :
    entry (cut line n) false = entry line (!after.isEmpty) ∧
      ∀ other otherKey, findValue (front ++ itemText key value ++ old) other otherKey =
        lookup other otherKey false
          (entries true before ++
            entry line (!after.isEmpty) :: settingEntry key value :: entries false after) := by
  obtain ⟨gaps, gap, spacedAfter⟩ := spaced_append.mp spaced
  have place := last_chunk (endsLine_textOf ends gaps) (cut line n)
  have shape : front = lead ++ textOf before ++ (cut line n).body ++ (cut line n).gap := isFront
  have taken := lineEnd_take (!after.isEmpty) line.gap
  rw [← end_] at taken
  -- The end of the line, with the old text and with the new text behind it.
  have now : endAt (line.gap.take n ++ itemText key value) = (lineEnd true (line.gap.take n)).2 := by
    have starts : StartsLine (itemText key value) :=
      startsLine_append (setting_nonempty key value) (setting_ordinary isKey isValue)
    have more : (itemText key value).isEmpty = false := by simp [itemText]
    have found := endAt_append (cut line n).ends starts
    rwa [more] at found
  have earlier : endAt (line.gap.take n ++ old) = (lineEnd (!after.isEmpty) line.gap).2 := by
    rw [isOld, ← List.append_assoc, List.take_append_drop, endAt_append line.ends (startsLine_textOf after),
      textOf_isEmpty]
  rw [undisturbed, shape, place.1, place.2, show (cut line n).gap = line.gap.take n from rfl, now,
    earlier] at clean
  rw [shape, place.1] at apart
  simp only [Bool.or_eq_true, beq_iff_eq, Option.isNone_iff_eq_none] at clean
  have before_ : (cut line n).gap <+: line.gap := List.take_prefix n line.gap
  have sameMore : entry (cut line n) true = entry line (!after.isEmpty) := by
    refine entry_prefix rfl before_ ?_
    rcases clean with (remark | blank) | sameEnd
    · exact .inl remark
    · exact .inr (.inl blank)
    · exact .inr (.inr sameEnd)
  have sameOver : entry (cut line n) false = entry line (!after.isEmpty) := by
    refine entry_prefix rfl before_ ?_
    rcases clean with (remark | blank) | sameEnd
    · exact .inl remark
    · exact .inr (.inl blank)
    · refine .inr (.inr (taken.2.1 fun early => ?_))
      exact taken.2.2 early (sameEnd.trans early)
  refine ⟨sameOver, fun other otherKey => ?_⟩
  have longGap : ∀ c ∈ lineFeed ++ line.gap.drop n, isEnd c = true := by
    intro c mem
    rcases List.mem_append.mp mem with new | inGap
    · exact ends_lineFeed c new
    · exact line.ends c (List.mem_of_mem_drop inGap)
  have text : front ++ itemText key value ++ old = lead ++
      textOf (before ++
        cut line n :: newChunk isKey isValue (lineFeed ++ line.gap.drop n) longGap :: after) := by
    rw [isFront, isOld]
    simp [textOf, cut, newChunk, itemText, lineFeed]
  have newSpaced : Spaced
      (before ++ cut line n :: newChunk isKey isValue (lineFeed ++ line.gap.drop n) longGap :: after) :=
    spaced_append.mpr ⟨gaps, fun _ => apart, by simp [newChunk, lineFeed], spacedAfter⟩
  rw [text, findValue_eq ends newSpaced, entries_append]
  simp [entries, sameMore, entry_newChunk isKey isValue fits]

theorem old_text {lead : Text} {before after : List Chunk} {line : Chunk} (n : Nat) :
    lead ++ textOf (before ++ line :: after) =
      (lead ++ textOf before ++ line.body ++ line.gap.take n) ++ (line.gap.drop n ++ textOf after) := by
  rw [textOf_append, textOf_cons]
  conv => lhs; rw [← List.take_append_drop n line.gap]
  simp only [List.append_assoc]

theorem take_drop_front {whole front back : Text} {place : Nat} (shape : whole = front ++ back)
    (length : place = front.length) : whole.take place = front ∧ whole.drop place = back := by
  rw [shape, length]
  exact ⟨List.take_left, List.drop_left⟩

/-- A section with lines that set values, as `findKey` sees it. -/
theorem findKey_section {key lead : Text} {pre front back : List Chunk} {header last : Chunk}
    {place : FoundSection} (spaced : Spaced (pre ++ header :: (front ++ last :: back)))
    (cont1 : place.cont1 = lead.length + (textOf pre).length + header.body.length + (lineEnd true header.gap).1)
    (cont2 : place.cont2 = lead.length + (textOf pre).length + (header.body ++ header.gap).length +
      (textOf front).length + last.body.length + (lineEnd (!back.isEmpty) last.gap).1) :
    findKey (lead ++ textOf (pre ++ header :: (front ++ last :: back))) place key =
      (scanChunks (findKeyBody key) false
        (lead.length + (textOf pre).length + (header.body ++ header.gap).length)
        (front ++ [cut last (lineEnd (!back.isEmpty) last.gap).1]) none).map leave := by
  obtain ⟨_, _, spacedRest⟩ := spaced_append.mp spaced
  obtain ⟨gaps, _, _⟩ := spaced_append.mp spacedRest
  have bounds := @lineEnd_bounds header.gap true
  have length : (lead ++ textOf pre ++ header.body ++ header.gap.take (lineEnd true header.gap).1).length =
      lead.length + (textOf pre).length + header.body.length + (lineEnd true header.gap).1 := by
    simp only [List.length_append, List.length_take]
    omega
  have text : lead ++ textOf (pre ++ header :: (front ++ last :: back)) =
      (lead ++ textOf pre ++ header.body ++ header.gap.take (lineEnd true header.gap).1) ++
        (header.gap.drop (lineEnd true header.gap).1 ++
          (textOf front ++ (last.body ++ last.gap ++ textOf back))) := by
    rw [@old_text lead pre (front ++ last :: back) header (lineEnd true header.gap).1, textOf_append,
      textOf_cons]
  rw [findKey_chunks (fun c mem => header.ends c (List.mem_of_mem_drop mem)) gaps text
    (cont1.trans length.symm)]
  · congr 2
    simp only [List.length_append, List.length_take, List.length_drop]
    omega
  · rw [cont2]
    simp only [List.length_append, List.length_take, List.length_drop]
    omega

/-- What `findKey` answers about such a section: the first of its lines that sets the key. -/
theorem findKey_answers {key lead : Text} {pre front back : List Chunk} {header last : Chunk}
    {place : FoundSection}
    {found : Option (Nat × LineRead)} (spaced : Spaced (pre ++ header :: (front ++ last :: back)))
    (cont1 : place.cont1 = lead.length + (textOf pre).length + header.body.length + (lineEnd true header.gap).1)
    (cont2 : place.cont2 = lead.length + (textOf pre).length + (header.body ++ header.gap).length +
      (textOf front).length + last.body.length + (lineEnd (!back.isEmpty) last.gap).1)
    (keys : findKey (lead ++ textOf (pre ++ header :: (front ++ last :: back))) place key = .ok found) :
    (found = none ∧
        ∀ read ∈ entries false (front ++ [cut last (lineEnd (!back.isEmpty) last.gap).1]), ¬ Sets key read) ∨
      ∃ earlier seen later line,
        front ++ [cut last (lineEnd (!back.isEmpty) last.gap).1] = earlier ++ seen :: later ∧
        (∀ read ∈ entries true earlier, ¬ Sets key read) ∧ reading seen (!later.isEmpty) = .ok line ∧
        Sets key (entry seen (!later.isEmpty)) ∧
        found = some (lead.length + (textOf pre).length + (header.body ++ header.gap).length +
          (textOf earlier).length, line) := by
  rw [findKey_section spaced cont1 cont2] at keys
  cases scan : scanChunks (findKeyBody key) false
      (lead.length + (textOf pre).length + (header.body ++ header.gap).length)
      (front ++ [cut last (lineEnd (!back.isEmpty) last.gap).1]) none with
  | error fault =>
    rw [scan] at keys
    cases keys
  | ok result =>
    rw [scan] at keys
    have left : leave result = found := Except.ok.inj keys
    rw [← left]
    exact scanKey scan

theorem entries_concat (more : Bool) (front : List Chunk) (last : Chunk) :
    entries more (front ++ [last]) = entries true front ++ [entry last more] := by
  rw [entries_append]
  simp [entries]

/-- A new line directly behind the header, for a section without lines that set values. -/
theorem sees_newItem_first {sect key value lead : Text} {pre rest : List Chunk} {header : Chunk}
    {place : FoundSection} (isKey : Word key) (isValue : Word value)
    (fits : (setting key value).length < sizeLine)
    (ends : ∀ c ∈ lead, isEnd c = true) (spaced : Spaced (pre ++ header :: rest))
    (preceding : ∀ read ∈ entries true pre, NotOpens sect read)
    (opens : Opens sect (entry header (!rest.isEmpty))) (cont2 : place.cont2 =
      lead.length + (textOf pre).length + header.body.length + (lineEnd (!rest.isEmpty) header.gap).1)
    (apart : lastGap ((lead ++ textOf (pre ++ header :: rest)).take place.cont2) ≠ [])
    (clean : undisturbed ((lead ++ textOf (pre ++ header :: rest)).take place.cont2)
      ((lead ++ textOf (pre ++ header :: rest)).drop place.cont2) (itemText key value) = true) :
    Sees (lead ++ textOf (pre ++ header :: rest))
      ((lead ++ textOf (pre ++ header :: rest)).take place.cont2 ++ itemText key value ++
        (lead ++ textOf (pre ++ header :: rest)).drop place.cont2) sect key value := by
  have shape := @old_text lead pre rest header (lineEnd (!rest.isEmpty) header.gap).1
  have bounds := @lineEnd_bounds header.gap (!rest.isEmpty)
  have length : place.cont2 =
      (lead ++ textOf pre ++ header.body ++ header.gap.take (lineEnd (!rest.isEmpty) header.gap).1).length := by
    rw [cont2]
    simp only [List.length_append, List.length_take]
    omega
  have split := take_drop_front shape length
  rw [split.1, split.2] at clean ⊢
  rw [split.1] at apart
  obtain ⟨_, new⟩ := insert_line isKey isValue fits ends spaced rfl rfl rfl apart clean
  refine @sees_of_entries sect key value _ _ isKey isValue (entries true pre) []
    (entries false rest) _ preceding
    opens (by simp) (by simp) new ?_
  intro other otherKey _
  rw [findValue_eq ends spaced, entries_append]
  simp [entries]

theorem sees_newItem {sect key value buffer : Text} (isKey : Word key) (isValue : Word value)
    (fits : (setting key value).length < sizeLine) {place : FoundSection}
    (search : findSection buffer (some sect) = .ok (some place)) (noKey : findKey buffer place key = .ok none)
    (apart : lastGap (buffer.take place.cont2) ≠ [])
    (clean : undisturbed (buffer.take place.cont2) (buffer.drop place.cont2) (itemText key value) = true) :
    Sees buffer (buffer.take place.cont2 ++ itemText key value ++ buffer.drop place.cont2) sect key value := by
  obtain ⟨lead, chunks, ends, spaced, rfl⟩ := exists_chunks buffer
  obtain ⟨none, _⟩ | ⟨found, at_, same, cont1, cont2⟩ := findSection_chunks ends spaced search
  · cases none
  · cases same
    obtain ⟨pre, header, rest, rfl, preceding, opens⟩ := found
    rcases cont2 with here | ⟨front, last, back, rest_, inside, cont2⟩
    · refine sees_newItem_first isKey isValue fits ends spaced preceding ?_ ?_ apart clean
      · rwa [Bool.false_or] at opens
      · rw [here, cont1, Section.start, Bool.false_or]
    · subst rest_
      simp only [Section.start, Section.behind, Bool.false_or] at cont1 cont2
      have more : (!(front ++ last :: back).isEmpty) = true := by simp
      rw [more] at cont1
      -- None of the lines `findKey` saw sets the key.
      obtain ⟨_, others⟩ | ⟨_, _, _, _, _, _, _, _, some⟩ := findKey_answers spaced cont1 cont2 noKey
      case inr => cases some
      have regroup : pre ++ header :: (front ++ last :: back) = (pre ++ header :: front) ++ last :: back := by
        simp
      rw [regroup] at spaced clean apart ⊢
      have shape := @old_text lead (pre ++ header :: front) back last (lineEnd (!back.isEmpty) last.gap).1
      have bounds := @lineEnd_bounds last.gap (!back.isEmpty)
      have length : place.cont2 = (lead ++ textOf (pre ++ header :: front) ++ last.body ++
          last.gap.take (lineEnd (!back.isEmpty) last.gap).1).length := by
        rw [cont2]
        simp only [textOf_append, textOf_cons, List.length_append, List.length_take]
        omega
      have split := take_drop_front shape length
      rw [split.1, split.2] at clean ⊢
      rw [split.1] at apart
      obtain ⟨same, new⟩ := insert_line isKey isValue fits ends spaced rfl rfl rfl apart clean
      rw [entries_concat, same] at others
      rw [Bool.false_or, entries_concat] at inside
      have opens' : Opens sect (entry header true) := by rwa [Bool.false_or, more] at opens
      refine @sees_of_entries sect key value _ _ isKey isValue (entries true pre)
        (entries true front ++ [entry last (!back.isEmpty)])
        (entries false back) _ preceding opens' inside others ?_ ?_
      · intro other otherKey
        rw [new, entries_append]
        simp [entries]
      · intro other otherKey _
        rw [findValue_eq ends spaced, entries_append, entries_append]
        simp [entries]

/-! ### A new value for a key -/

/-- Line ends, quotes and the signs of remarks leave the count of blanks alone. -/
def keepsBlanks (c : Char) : Bool := c == '\r' || c == '\n' || c == '\x27' || c == '\x22' || isSign c

theorem visit_cntblank (s : LineScan) (p : Nat) (c : Char) :
    (s.visit p c).cntblank =
      if keepsBlanks c then s.cntblank else if isspace c then s.cntblank + 1 else 0 := by
  simp only [LineScan.visit, keepsBlanks, isSign]
  by_cases isCR : c = '\r'
  · simp [isCR]
  by_cases isLF : c = '\n'
  · simp [isLF]
  by_cases quote1 : c = '\x27'
  · rw [if_neg isCR, if_neg isLF, if_pos quote1]
    split <;> simp [quote1]
  by_cases quote2 : c = '\x22'
  · rw [if_neg isCR, if_neg isLF, if_neg quote1, if_pos quote2]
    split <;> simp [quote2]
  rw [if_neg isCR, if_neg isLF, if_neg quote1, if_neg quote2]
  by_cases sign : c = ';' ∨ c = '#'
  · rw [if_pos sign]
    split
    · simp [sign]
    · split <;> simp [sign]
  · rw [if_neg sign]
    simp only [not_or] at sign
    split <;> simp_all

theorem visit_cntblank_mono {first second : LineScan} (le : first.cntblank ≤ second.cntblank) (p q : Nat)
    (c : Char) :
    (first.visit p c).cntblank ≤ (second.visit q c).cntblank := by
  rw [visit_cntblank, visit_cntblank]
  split
  · exact le
  · split
    · exact Nat.succ_le_succ le
    · exact Nat.le_refl 0

theorem visitAll_cntblank_mono {first second : LineScan} (le : first.cntblank ≤ second.cntblank) (p q : Nat)
    (text : Text) : (visitAll first p text).cntblank ≤ (visitAll second q text).cntblank := by
  induction text generalizing first second p q with
  | nil => exact le
  | cons c text inductionHypothesis => exact inductionHypothesis (visit_cntblank_mono le p q c) _ _

/-- In a remark the content and the remark stay as they are. -/
theorem visit_rem1 (s : LineScan) (p : Nat) (c : Char) :
    (s.visit p c).rem1 =
      if isSign c && !s.isQuot1 && !s.isQuot2 && s.rem1.isNone then some (p - s.cntblank) else s.rem1 := by
  cases remark : s.rem1 <;> grind [LineScan.visit, isSign]

theorem visit_cont1 (s : LineScan) (p : Nat) (c : Char) :
    (s.visit p c).cont1 =
      if keepsBlanks c || isspace c || s.rem1.isSome || s.cont1.isSome then s.cont1 else some p := by
  cases remark : s.rem1 <;> cases content : s.cont1 <;> grind [LineScan.visit, isSign, keepsBlanks]

/-- Behind a remark neither of its pointers moves. -/
theorem visitAll_pointers {s : LineScan} {rem1 : Nat} (remark : s.rem1 = some rem1) (p : Nat) (text : Text) :
    (visitAll s p text).rem1 = some rem1 ∧ (visitAll s p text).cont1 = s.cont1 := by
  induction text generalizing s p with
  | nil => exact ⟨remark, rfl⟩
  | cons c text inductionHypothesis =>
    have still : (s.visit p c).rem1 = some rem1 := by
      rw [visit_rem1, remark]
      simp
    have content : (s.visit p c).cont1 = s.cont1 := by
      rw [visit_cont1, remark]
      simp
    obtain ⟨remark', content'⟩ := inductionHypothesis still (p + 1)
    exact ⟨remark', content'.trans content⟩

theorem visitAll_blanks {blanks : Text} (ordinary : ∀ c ∈ blanks, isEnd c = false)
    (spaces : ∀ c ∈ blanks, isspace c = true) (s : LineScan) (p : Nat) :
    visitAll s p blanks = { s with cntblank := s.cntblank + blanks.length } := by
  induction blanks generalizing s p with
  | nil => rfl
  | cons c blanks inductionHypothesis =>
    have space := spaces c List.mem_cons_self
    have letter : Letter c := by
      refine ⟨ordinary c List.mem_cons_self, ?_, ?_, ?_⟩
      · cases sign : isSign c with
        | false => rfl
        | true =>
          simp only [isSign, Bool.or_eq_true, beq_iff_eq] at sign
          rcases sign with rfl | rfl <;> exact absurd space (by decide)
      · rintro rfl
        exact absurd space (by decide)
      · rintro rfl
        exact absurd space (by decide)
    rw [visitAll, visit_letter letter, if_pos space, inductionHypothesis
      (fun d mem => ordinary d (List.mem_cons_of_mem _ mem))
      (fun d mem => spaces d (List.mem_cons_of_mem _ mem))]
    simp only [List.length_cons]
    congr 1
    omega

/-- The line of the key as `iniSetString` leaves it: the new setting, and the line from `rem1` on. -/
def rewritten {key value : Text} (isKey : Word key) (isValue : Word value) (line : Chunk) (rem1 : Nat) :
    Chunk where
  body := setting key value ++ line.body.drop rem1
  gap := line.gap
  nonempty := by simp [setting]
  ordinary := by
    intro c mem
    rcases List.mem_append.mp mem with inSetting | inLine
    · exact setting_ordinary isKey isValue c inSetting
    · exact line.ordinary c (List.mem_of_mem_drop inLine)
  ends := line.ends

/-- The text kept from `rem1` on is a remark with nothing blank at its end. -/
theorem entry_rewritten_remark {key value : Text} (isKey : Word key) (isValue : Word value)
    (fits : (setting key value).length < sizeLine) {line : Chunk} {rem1 : Nat}
    (noBlank : (visitAll {} 0 line.body).cntblank = 0)
    (sign : ((line.body.drop rem1).dropWhile isspace).head?.any isSign = true) (more : Bool) :
    entry (rewritten isKey isValue line rem1) more = settingEntry key value := by
  obtain ⟨blanks, c, tail, kept, spaces, isSign'⟩ : ∃ blanks c tail, line.body.drop rem1 = blanks ++ c :: tail ∧
      (∀ d ∈ blanks, isspace d = true) ∧ isSign c = true := by
    cases rest : (line.body.drop rem1).dropWhile isspace with
    | nil =>
      rw [rest] at sign
      cases sign
    | cons c tail =>
      rw [rest] at sign
      refine ⟨(line.body.drop rem1).takeWhile isspace, c, tail, ?_, fun d mem => List.mem_takeWhile_imp mem, ?_⟩
      · rw [← rest, List.takeWhile_append_dropWhile]
      · simpa using sign
  have ordinary : ∀ d ∈ blanks, isEnd d = false := by
    intro d mem
    exact line.ordinary d (List.mem_of_mem_drop (kept ▸ List.mem_append_left _ mem))
  have before := visitAll_setting isKey isValue
  have counted := visitAll_blanks ordinary spaces { cont1 := some 0 } (0 + (setting key value).length)
  -- The sign is found with as many blanks before it as are kept.
  have atSign : (LineScan.visit { cntblank := 0 + blanks.length, cont1 := some 0 }
      (0 + (setting key value).length + blanks.length) c) =
      { cntblank := 0 + blanks.length, cont1 := some 0, rem1 := some (setting key value).length } := by
    simp only [isSign, Bool.or_eq_true, beq_iff_eq] at isSign'
    rcases isSign' with rfl | rfl <;> simp [LineScan.visit]
  have body : (rewritten isKey isValue line rem1).body = setting key value ++ line.body.drop rem1 := rfl
  have scan : visitAll {} 0 (rewritten isKey isValue line rem1).body =
      visitAll { cntblank := 0 + blanks.length, cont1 := some 0, rem1 := some (setting key value).length }
        (0 + (setting key value).length + blanks.length + 1) tail := by
    rw [body, kept, visitAll_append, before, visitAll_append, counted, visitAll, atSign]
  obtain ⟨remark, content⟩ := @visitAll_pointers
    { cntblank := 0 + blanks.length, cont1 := some 0, rem1 := some (setting key value).length }
    (setting key value).length rfl (0 + (setting key value).length + blanks.length + 1) tail
  rw [← scan] at content remark
  -- At its end no blank is counted, for none was in the line it was taken from.
  have fewer : (visitAll {} 0 (rewritten isKey isValue line rem1).body).cntblank ≤
      (visitAll {} 0 line.body).cntblank := by
    have whole : visitAll {} 0 line.body =
        visitAll (visitAll {} 0 (line.body.take rem1)) (0 + (line.body.take rem1).length)
          (line.body.drop rem1) := by
      rw [← visitAll_append, List.take_append_drop]
    rw [whole, body, visitAll_append, before]
    exact visitAll_cntblank_mono (Nat.zero_le _) _ _ _
  rw [entry_remark remark, body]
  exact contentAt_setting isKey isValue fits content (by omega) _

/-- Nothing of the line is kept, and its end is where the body ends. -/
theorem entry_rewritten_whole {key value : Text} (isKey : Word key) (isValue : Word value)
    (fits : (setting key value).length < sizeLine) {line : Chunk} {more : Bool}
    (atEnd : (lineEnd more line.gap).2 = 0) :
    entry (rewritten isKey isValue line line.body.length) more = settingEntry key value := by
  have body : (rewritten isKey isValue line line.body.length).body = setting key value := by
    simp [rewritten]
  have gap : (rewritten isKey isValue line line.body.length).gap = line.gap := rfl
  have scan := visitAll_setting isKey isValue
  have bare : (visitAll {} 0 (rewritten isKey isValue line line.body.length).body).rem1 = none := by
    rw [body, scan]
  rw [entry_bare bare (by rw [gap]; omega), body, gap, atEnd, Int.add_zero, scan]
  simpa using contentAt_setting isKey isValue fits (s := { cont1 := some 0 }) rfl rfl []

/-- The last character of the line is kept, and cut off again when the line is read. -/
theorem entry_rewritten_early {key value : Text} (isKey : Word key) (isValue : Word value)
    (fits : (setting key value).length < sizeLine) {line : Chunk} {more : Bool}
    (early : (lineEnd more line.gap).2 = -1) (last : line.body.getLast?.any (fun c => !isspace c) = true) :
    entry (rewritten isKey isValue line (line.body.length - 1)) more = settingEntry key value := by
  obtain ⟨front, d, shape⟩ : ∃ front d, line.body = front ++ [d] := by
    cases parts : line.body using List.reverseRecOn with
    | nil => exact absurd parts line.nonempty
    | append_singleton front d => exact ⟨front, d, rfl⟩
  have visible : isspace d = false := by simpa [shape] using last
  have ordinary : isEnd d = false := line.ordinary d (by simp [shape])
  have body : (rewritten isKey isValue line (line.body.length - 1)).body = setting key value ++ [d] := by
    simp [rewritten, shape]
  have gap : (rewritten isKey isValue line (line.body.length - 1)).gap = line.gap := rfl
  have scan : visitAll {} 0 (setting key value ++ [d]) =
      LineScan.visit { cont1 := some 0 } (0 + (setting key value).length) d := by
    rw [visitAll_append, visitAll_setting isKey isValue]
    rfl
  cases sign : isSign d with
  | true =>
    -- A sign in quotes starts a remark now.
    have remark : visitAll {} 0 (setting key value ++ [d]) =
        { cont1 := some 0, rem1 := some (setting key value).length } := by
      simp only [isSign, Bool.or_eq_true, beq_iff_eq] at sign
      rw [scan]
      rcases sign with rfl | rfl <;> simp [LineScan.visit]
    have isRemark : (visitAll {} 0 (rewritten isKey isValue line (line.body.length - 1)).body).rem1 =
        some (setting key value).length := by
      rw [body, remark]
    rw [entry_remark isRemark, body, remark]
    exact contentAt_setting isKey isValue fits rfl rfl _
  | false =>
    have bare : (visitAll {} 0 (setting key value ++ [d])).rem1 = none ∧
        (visitAll {} 0 (setting key value ++ [d])).cont1 = some 0 ∧
        (visitAll {} 0 (setting key value ++ [d])).cntblank = 0 := by
      rw [scan]
      by_cases quote : d = '\x27' ∨ d = '\x22'
      · rcases quote with rfl | rfl <;> exact ⟨rfl, rfl, rfl⟩
      · rw [visit_letter ⟨ordinary, sign, not_or.mp quote⟩, if_neg (by simp [visible])]
        exact ⟨rfl, rfl, rfl⟩
    have isBare : (visitAll {} 0 (rewritten isKey isValue line (line.body.length - 1)).body).rem1 = none := by
      rw [body, bare.1]
    have place : ((setting key value ++ [d]).length : Int) + -1 = (setting key value).length := by
      simp only [List.length_append, List.length_singleton]
      omega
    rw [entry_bare isBare (by rw [gap]; omega), body, gap, early, place]
    exact contentAt_setting isKey isValue fits bare.2.1 bare.2.2 _

/-- The line of a key may be rewritten: its remark is kept with the blanks before it and ends in no
blank; or it has none, and its end is found behind the body, or, in the middle of the section, one
character too early each time. -/
def rewritable (line : Text) (isLast : Bool) : Bool :=
  let body := line.takeWhile fun c => !isEnd c
  let tail := line.dropWhile fun c => !isEnd c
  let scan := visitAll {} 0 body
  match scan.rem1 with
  | some rem1 => ((body.drop rem1).dropWhile isspace).head?.any isSign && scan.cntblank == 0
  | none => endAt tail == 0 || (endAt tail == -1 && !isLast && body.getLast?.any fun c => !isspace c)

theorem reading_rem1 {chunk : Chunk} {more : Bool} {read : LineRead} (is : reading chunk more = .ok read) :
    read.rem1 = rem1Of (visitAll {} 0 chunk.body) (chunk.body.length + (lineEnd more chunk.gap).2) ∧
      read.nextline = chunk.body.length + (lineEnd more chunk.gap).1 := by
  refine ⟨?_, finishAt_nextline is⟩
  rw [reading, finishAt] at is
  cases cont : (visitAll {} 0 chunk.body).cont1 with
  | none =>
    rw [cont] at is
    cases is
    rfl
  | some cont1 =>
    rw [cont] at is
    dsimp only at is
    split at is
    · exact (congrArg LineRead.rem1 (Except.ok.inj is)).symm
    · split at is
      · cases is
      · exact (congrArg LineRead.rem1 (Except.ok.inj is)).symm

theorem body_of_line {line : Chunk} {after : List Chunk} (spaced : Spaced (line :: after)) :
    (line.body ++ line.gap ++ textOf after).takeWhile (fun c => !isEnd c) = line.body ∧
      (line.body ++ line.gap ++ textOf after).dropWhile (fun c => !isEnd c) = line.gap ++ textOf after := by
  have ordinary : ∀ c ∈ line.body, (!isEnd c) = true := fun c mem => by simp [line.ordinary c mem]
  rw [List.append_assoc, List.takeWhile_append_of_pos ordinary, List.dropWhile_append_of_pos ordinary]
  cases gap : line.gap with
  | nil =>
    rw [spaced.apart gap]
    simp
  | cons c rest =>
    have first : isEnd c = true := line.ends c (by simp [gap])
    simp [first]

/-- How `findKey` saw a line: as it is, or, at the end of the section, without what follows it. -/
def SeenAs (line : Chunk) (more isLast : Bool) (seen : Chunk) (seenMore : Bool) : Prop :=
  (isLast = false ∧ seen = line ∧ seenMore = more) ∨
    (isLast = true ∧ seen = cut line (lineEnd more line.gap).1 ∧ seenMore = false)

/-- A line that may be rewritten sets the value afterwards, and was read before as `findKey` saw it. -/
theorem rewrite_line {key value : Text} (isKey : Word key) (isValue : Word value)
    (fits : (setting key value).length < sizeLine) {line seen : Chunk} {after : List Chunk}
    {isLast seenMore : Bool} {read : LineRead} (spaced : Spaced (line :: after))
    (seenAs : SeenAs line (!after.isEmpty) isLast seen seenMore) (is : reading seen seenMore = .ok read)
    (clean : rewritable (line.body ++ line.gap ++ textOf after) isLast = true) :
    ∃ rem1 : Nat, read.rem1 = rem1 ∧ rem1 ≤ line.body.length ∧
      entry (rewritten isKey isValue line rem1) (!after.isEmpty) = settingEntry key value ∧
      entry seen seenMore = entry line (!after.isEmpty) := by
  obtain ⟨body, tail⟩ := body_of_line spaced
  have pointer := (reading_rem1 is).1
  have sameBody : seen.body = line.body := by
    rcases seenAs with ⟨_, rfl, _⟩ | ⟨_, rfl, _⟩ <;> rfl
  have gap_ : seen.gap <+: line.gap := by
    rcases seenAs with ⟨_, rfl, _⟩ | ⟨_, rfl, _⟩
    · exact List.prefix_refl _
    · exact List.take_prefix _ _
  have limited : (lineEnd (!after.isEmpty) line.gap).2 ≠ -1 →
      (lineEnd seenMore seen.gap).2 = (lineEnd (!after.isEmpty) line.gap).2 := by
    intro notEarly
    rcases seenAs with ⟨_, rfl, rfl⟩ | ⟨_, rfl, rfl⟩
    · rfl
    · exact (lineEnd_take _ _).2.1 notEarly
  rw [rewritable, body, tail, endAt_append line.ends (startsLine_textOf after), textOf_isEmpty] at clean
  rw [sameBody] at pointer
  cases remark : (visitAll {} 0 line.body).rem1 with
  | some rem1 =>
    simp only [remark, Bool.and_eq_true, beq_iff_eq] at clean
    refine ⟨rem1, ?_, ?_, entry_rewritten_remark isKey isValue fits clean.2 clean.1 _, ?_⟩
    · rw [pointer, rem1Of, remark]
    · simpa using visitAll_rem1_le (by simp) line.body rem1 remark
    · exact entry_prefix sameBody gap_ (.inl (by rw [sameBody, remark]; rfl))
  | none =>
    simp only [remark, Bool.or_eq_true, Bool.and_eq_true, beq_iff_eq, Bool.not_eq_true'] at clean
    rw [rem1Of, remark] at pointer
    rcases clean with atEnd | ⟨⟨early, middle⟩, last⟩
    · have same := limited (by omega)
      refine ⟨line.body.length, ?_, Nat.le_refl _, entry_rewritten_whole isKey isValue fits atEnd, ?_⟩
      · rw [pointer, same, atEnd, Int.add_zero]
      · exact entry_prefix sameBody gap_ (.inr (.inr same))
    · rcases seenAs with ⟨_, rfl, rfl⟩ | ⟨isLast_, _, _⟩
      · have long := List.length_pos_iff.mpr seen.nonempty
        refine ⟨seen.body.length - 1, ?_, Nat.sub_le _ _,
          entry_rewritten_early isKey isValue fits early last, rfl⟩
        rw [pointer, early]
        show (seen.body.length : Int) + -1 = ((seen.body.length - 1 : Nat) : Int)
        omega
      · rw [isLast_] at middle
        cases middle

theorem rewritten_text {key value lead : Text} {before after : List Chunk} {line : Chunk} (isKey : Word key)
    (isValue : Word value) {rem1 : Nat} (inside : rem1 ≤ line.body.length) {p : Nat}
    (place : p = (lead ++ textOf before).length) :
    (lead ++ textOf (before ++ line :: after)).take p ++ setting key value ++
        (lead ++ textOf (before ++ line :: after)).drop ((p : Int) + (rem1 : Int)).toNat =
      lead ++ textOf (before ++ rewritten isKey isValue line rem1 :: after) := by
  have front : lead ++ textOf (before ++ line :: after) =
      (lead ++ textOf before) ++ (line.body ++ line.gap ++ textOf after) := by
    simp [textOf]
  have back : lead ++ textOf (before ++ line :: after) =
      (lead ++ textOf before ++ line.body.take rem1) ++ (line.body.drop rem1 ++ line.gap ++ textOf after) := by
    rw [front]
    conv => lhs; rw [← List.take_append_drop rem1 line.body]
    simp only [List.append_assoc]
  have length : ((p : Int) + (rem1 : Int)).toNat = (lead ++ textOf before ++ line.body.take rem1).length := by
    rw [place]
    simp only [List.length_append, List.length_take]
    omega
  rw [(take_drop_front front place).1, (take_drop_front back length).2]
  simp [textOf, rewritten]

theorem entries_section (pre mid after : List Chunk) (header line : Chunk) :
    entries false (pre ++ header :: (mid ++ line :: after)) =
      entries true pre ++
        entry header true :: (entries true mid ++ entry line (!after.isEmpty) :: entries false after) := by
  have more : (!(mid ++ line :: after).isEmpty) = true := by simp
  rw [entries_append, entries, entries_append, entries, more]
  rfl

/-- The lookups after a line of the section was rewritten. -/
theorem sees_of_rewritten {sect key value lead : Text} {pre mid after : List Chunk} {header line : Chunk}
    (isKey : Word key) (isValue : Word value) (ends : ∀ c ∈ lead, isEnd c = true)
    (spaced : Spaced (pre ++ header :: (mid ++ line :: after)))
    (preceding : ∀ read ∈ entries true pre, NotOpens sect read) (opens : Opens sect (entry header true))
    (inside : ∀ read ∈ entries true mid, Inside read) (others : ∀ read ∈ entries true mid, ¬ Sets key read)
    (sets : Sets key (entry line (!after.isEmpty))) {new : Chunk} (gap : new.gap = line.gap)
    (is : entry new (!after.isEmpty) = settingEntry key value) :
    Sees (lead ++ textOf (pre ++ header :: (mid ++ line :: after)))
      (lead ++ textOf (pre ++ header :: (mid ++ new :: after))) sect key value := by
  have newSpaced : Spaced (pre ++ header :: (mid ++ new :: after)) := by
    obtain ⟨gaps, headerGap, spacedRest⟩ := spaced_append.mp spaced
    obtain ⟨midGaps, lineGap, spacedAfter⟩ := spaced_append.mp spacedRest
    refine spaced_append.mpr ⟨gaps, fun _ => headerGap (by simp), spaced_append.mpr ⟨midGaps, ?_, spacedAfter⟩⟩
    rwa [gap]
  refine @sees_of_entries sect key value _ _ isKey isValue (entries true pre) (entries true mid)
    (entries false after) _
    preceding opens inside others ?_ ?_
  · intro other otherKey
    rw [findValue_eq ends newSpaced, entries_section, is]
  · intro other otherKey apart
    rw [findValue_eq ends spaced, entries_section]
    -- The old line set the same key, and is not seen by the lookup either.
    exact lookup_congr (lookup_apart apart opens inside sets (entries false after)) (entries true pre) false

theorem drop_line {lead : Text} {before after : List Chunk} {line : Chunk} {p : Nat}
    (place : p = (lead ++ textOf before).length) :
    (lead ++ textOf (before ++ line :: after)).drop p = line.body ++ line.gap ++ textOf after := by
  have shape : lead ++ textOf (before ++ line :: after) =
      (lead ++ textOf before) ++ (line.body ++ line.gap ++ textOf after) := by
    simp [textOf]
  exact (take_drop_front shape place).2

/-- A line of the section, as `findKey` saw it, is rewritten in place. -/
theorem sees_of_seen {sect key value lead : Text} {pre mid after : List Chunk} {header line seen : Chunk}
    {isLast seenMore : Bool} {read : LineRead} {p : Nat} (isKey : Word key) (isValue : Word value)
    (fits : (setting key value).length < sizeLine) (ends : ∀ c ∈ lead, isEnd c = true)
    (spaced : Spaced (pre ++ header :: (mid ++ line :: after)))
    (preceding : ∀ read ∈ entries true pre, NotOpens sect read) (opens : Opens sect (entry header true))
    (inside : ∀ read ∈ entries true mid, Inside read) (others : ∀ read ∈ entries true mid, ¬ Sets key read)
    (place : p = lead.length + (textOf pre).length + (header.body ++ header.gap).length + (textOf mid).length)
    (seenAs : SeenAs line (!after.isEmpty) isLast seen seenMore) (is : reading seen seenMore = .ok read)
    (sets : Sets key (entry seen seenMore))
    (clean : rewritable ((lead ++ textOf (pre ++ header :: (mid ++ line :: after))).drop p) isLast = true) :
    Sees (lead ++ textOf (pre ++ header :: (mid ++ line :: after)))
      ((lead ++ textOf (pre ++ header :: (mid ++ line :: after))).take p ++ setting key value ++
        (lead ++ textOf (pre ++ header :: (mid ++ line :: after))).drop
        ((p : Int) + read.rem1).toNat) sect key value := by
  have regroup : ∀ line, pre ++ header :: (mid ++ line :: after) = (pre ++ header :: mid) ++ line :: after := by
    simp
  have before : p = (lead ++ textOf (pre ++ header :: mid)).length := by
    rw [place]
    simp only [textOf_append, textOf_cons, List.length_append]
    omega
  obtain ⟨_, _, spacedRest⟩ := spaced_append.mp spaced
  obtain ⟨_, lineGap, spacedAfter⟩ := spaced_append.mp spacedRest
  rw [regroup, drop_line before] at clean
  obtain ⟨rem1, pointer, within, new, same⟩ :=
    rewrite_line isKey isValue fits ⟨lineGap, spacedAfter⟩ seenAs is clean
  rw [same] at sets
  have gap : (rewritten isKey isValue line rem1).gap = line.gap := rfl
  have sees := sees_of_rewritten isKey isValue ends spaced preceding opens inside others sets gap new
  have text := @rewritten_text key value lead
      (pre ++ header :: mid) after line isKey isValue rem1 within p before
  rw [← regroup, ← regroup] at text
  rw [pointer, text]
  exact sees

theorem sees_newValue {sect key value buffer : Text} (isKey : Word key) (isValue : Word value)
    (fits : (setting key value).length < sizeLine) {place : FoundSection} {p : Nat} {read : LineRead}
    (search : findSection buffer (some sect) = .ok (some place))
    (hasKey : findKey buffer place key = .ok (some (p, read)))
    (clean : rewritable (buffer.drop p) (p + read.nextline == place.cont2) = true) :
    Sees buffer (buffer.take p ++ setting key value ++
      buffer.drop ((p : Int) + read.rem1).toNat) sect key value := by
  obtain ⟨lead, chunks, ends, spaced, rfl⟩ := exists_chunks buffer
  obtain ⟨none, _⟩ | ⟨found, at_, same, cont1, cont2⟩ := findSection_chunks ends spaced search
  · cases none
  cases same
  obtain ⟨pre, header, rest, rfl, preceding, opens⟩ := found
  rcases cont2 with here | ⟨front, last, back, rest_, inside, cont2⟩
  · -- The section has no line that sets a value.
    rw [findKey, here, Nat.sub_self, List.take_zero] at hasKey
    cases hasKey
  subst rest_
  simp only [Section.start, Section.behind, Bool.false_or] at cont1 cont2
  have more : (!(front ++ last :: back).isEmpty) = true := by simp
  rw [more] at cont1
  have opens' : Opens sect (entry header true) := by rwa [Bool.false_or, more] at opens
  rw [Bool.false_or, entries_concat] at inside
  obtain ⟨none, _⟩ | ⟨earlier, seen, later, line, shape, others, is, sets, some⟩ :=
    findKey_answers spaced cont1 cont2 hasKey
  · cases none
  cases some
  have nextline := (reading_rem1 is).2
  have insideEarlier : ∀ {following : List Chunk}, front = earlier ++ following →
      ∀ read ∈ entries true earlier, Inside read := by
    rintro following rfl read mem
    refine inside read (List.mem_append_left _ ?_)
    rw [entries_append, Bool.true_or]
    exact List.mem_append_left _ mem
  cases later using List.reverseRecOn with
  | nil =>
    -- The last line of the section.
    obtain ⟨rfl, only⟩ := List.append_inj' shape rfl
    cases only
    have isLast : (lead.length + (textOf pre).length + (header.body ++ header.gap).length +
        (textOf front).length +
        read.nextline == place.cont2) = true := by
      have sameEnd := (lineEnd_take (!back.isEmpty) last.gap).1
      have body : (cut last (lineEnd (!back.isEmpty) last.gap).1).body.length = last.body.length := rfl
      have gap : (cut last (lineEnd (!back.isEmpty) last.gap).1).gap =
          last.gap.take (lineEnd (!back.isEmpty) last.gap).1 := rfl
      have notMore : (!([] : List Chunk).isEmpty) = false := rfl
      rw [notMore, gap, sameEnd, body] at nextline
      rw [beq_iff_eq, nextline, cont2]
      omega
    rw [isLast] at clean
    exact sees_of_seen isKey isValue fits ends spaced preceding opens'
      (insideEarlier (List.append_nil front).symm) others
      rfl (.inr ⟨rfl, rfl, rfl⟩) is sets clean
  | append_singleton later cutLast =>
    have parts : front = earlier ++ seen :: later ∧
        cut last (lineEnd (!back.isEmpty) last.gap).1 = cutLast := by
      rw [← List.cons_append, ← List.append_assoc] at shape
      obtain ⟨first, second⟩ := List.append_inj' shape rfl
      exact ⟨first, List.singleton_injective second⟩
    obtain ⟨rfl, rfl⟩ := parts
    have follows : (!(later ++ [cut last (lineEnd (!back.isEmpty) last.gap).1]).isEmpty) =
        !(later ++ last :: back).isEmpty := by
      cases later <;> rfl
    rw [follows] at is sets nextline
    have regroup : (earlier ++ seen :: later) ++ last :: back = earlier ++ seen :: (later ++ last :: back) := by
      simp
    have notLast : (lead.length + (textOf pre).length + (header.body ++ header.gap).length +
        (textOf earlier).length + read.nextline == place.cont2) = false := by
      have bounds := @lineEnd_bounds seen.gap (!(later ++ last :: back).isEmpty)
      have long := List.length_pos_iff.mpr last.nonempty
      rw [beq_eq_false_iff_ne, nextline, cont2]
      simp only [textOf_append, textOf_cons, List.length_append]
      omega
    rw [notLast] at clean
    rw [regroup] at spaced clean ⊢
    exact sees_of_seen isKey isValue fits ends spaced preceding opens' (insideEarlier rfl) others rfl
      (.inl ⟨rfl, rfl, rfl⟩) is sets clean

/-! ### Setting and getting -/

/-- Where `iniSetString` writes, the lines next to the new text are read as before. -/
def splicesCleanly (gBuffer sect key value : Text) : Bool :=
  match findSection gBuffer (some sect) with
  | .error _ => true
  | .ok none => undisturbed gBuffer [] (sectionText sect key value)
  | .ok (some place) =>
    match findKey gBuffer place key with
    | .error _ => true
    | .ok (some (p, line)) => rewritable (gBuffer.drop p) (p + line.nextline == place.cont2)
    | .ok none =>
      !(lastGap (gBuffer.take place.cont2)).isEmpty &&
        undisturbed (gBuffer.take place.cont2) (gBuffer.drop place.cont2) (itemText key value)

/-- A call that returns 1 has written the file. -/
theorem iniSetString_returns {gBuffer sect key value : Text} {opens : Bool} {after : Inirw}
    (returns : Inirw.iniSetString { gBuffer := some gBuffer } (some sect) key (some value) opens =
      .ok (1, after)) :
    (findSection gBuffer (some sect) = .ok none ∧
        after = ⟨some (gBuffer ++ sectionText sect key value)⟩) ∨
      ∃ place, findSection gBuffer (some sect) = .ok (some place) ∧
        ((findKey gBuffer place key = .ok none ∧
            after = ⟨some (gBuffer.take place.cont2 ++ itemText key value ++ gBuffer.drop place.cont2)⟩) ∨
          ∃ p line, findKey gBuffer place key = .ok (some (p, line)) ∧
            after = ⟨some (gBuffer.take p ++ setting key value ++
              gBuffer.drop ((p : Int) + line.rem1).toNat)⟩) := by
  have written : ∀ {text : Text}, (if opens then ((1 : Int), ({ gBuffer := some text } : Inirw))
      else (0, { gBuffer := some gBuffer })) = (1, after) → after = { gBuffer := some text } := by
    intro text same
    cases opens with
    | true => exact (congrArg Prod.snd same).symm
    | false =>
      have code : (0 : Int) = 1 := congrArg Prod.fst same
      cases code
  simp only [Inirw.iniSetString] at returns
  cases search : findSection gBuffer (some sect) with
  | error fault =>
    rw [search] at returns
    cases returns
  | ok found =>
    rw [search] at returns
    cases found with
    | none =>
      have text := written (Except.ok.inj returns)
      exact .inl ⟨rfl, by simpa [sectionText, setting] using text⟩
    | some place =>
      refine .inr ⟨place, rfl, ?_⟩
      replace returns : (findKey gBuffer place key >>= _) = _ := returns
      cases keys : findKey gBuffer place key with
      | error fault =>
        rw [keys] at returns
        cases returns
      | ok answer =>
        rw [keys] at returns
        rcases answer with _ | ⟨p, line⟩
        · have text := written (Except.ok.inj returns)
          exact .inl ⟨rfl, by simpa [itemText, setting] using text⟩
        · have text := written (Except.ok.inj returns)
          exact .inr ⟨p, line, rfl, by simpa [setting] using text⟩

theorem sees_iniSetString {gBuffer sect key value : Text} (isSect : Word sect) (isKey : Word key)
    (isValue : Word value)
    (sectFits : sect.length + 2 < sizeLine) (fits : (setting key value).length < sizeLine) {opens : Bool}
    {after : Inirw}
    (returns : Inirw.iniSetString { gBuffer := some gBuffer } (some sect) key (some value) opens =
      .ok (1, after))
    (clean : splicesCleanly gBuffer sect key value = true) :
    ∃ text, after = { gBuffer := some text } ∧ Sees gBuffer text sect key value := by
  rw [splicesCleanly] at clean
  rcases iniSetString_returns returns with ⟨search, rfl⟩ |
      ⟨place, search, ⟨noKey, rfl⟩ | ⟨p, line, hasKey, rfl⟩⟩
  · rw [search] at clean
    exact ⟨_, rfl, sees_newSection isSect isKey isValue sectFits fits search clean⟩
  · simp only [search, noKey, Bool.and_eq_true, Bool.not_eq_true', List.isEmpty_eq_false_iff] at clean
    exact ⟨_, rfl, sees_newItem isKey isValue fits search noKey clean.1 clean.2⟩
  · simp only [search, hasKey] at clean
    exact ⟨_, rfl, sees_newValue isKey isValue fits search hasKey clean⟩

/-- What `iniGetValue` returns and copies out. -/
def answer (self : Inirw) (sect : Option Text) (key : Text) (maxlen : Nat) (defvalue : Option Text)
    (opens : Bool) :
    Except Fault (Int × Text) :=
  (self.iniGetValue sect key maxlen defvalue opens).map fun result => (result.1, result.2.1)

/-- The same lookup gives the same answer, where both calls return. -/
theorem answer_congr {before after : Text} {sect : Option Text} {key : Text}
    (same : findValue after sect key = findValue before sect key) (maxlen : Nat) (defvalue : Option Text)
    (opens : Bool) {earlier later : Int × Text}
    (first : answer { gBuffer := some before } sect key maxlen defvalue opens = .ok earlier)
    (second : answer { gBuffer := some after } sect key maxlen defvalue opens = .ok later) :
    later = earlier := by
  simp only [answer, Inirw.iniGetValue, same] at first second
  cases looked : findValue before sect key with
  | error fault =>
    rw [looked] at first
    cases first
  | ok found =>
    rw [looked] at first second
    cases found with
    | some value =>
      cases copies : Inirw.copied maxlen value with
      | error fault =>
        simp only [bind, Except.bind, copies, Except.map] at first
        cases first
      | ok text =>
        simp only [bind, Except.bind, copies, Except.map, pure, Except.pure] at first second
        exact (Except.ok.inj second).symm.trans (Except.ok.inj first)
    | none =>
      cases defvalue with
      | none => exact (Except.ok.inj second).symm.trans (Except.ok.inj first)
      | some default =>
        cases copies : Inirw.copied maxlen default with
        | error fault =>
          simp only [bind, Except.bind, copies, Except.map] at first
          cases first
        | ok text =>
          simp only [bind, Except.bind, copies] at first second
          -- The default is returned, whatever became of writing it back.
          have isDefault : ∀ {before : Text} {result : Int × Text},
              ((Inirw.iniSetString { gBuffer := some before } sect key (some default) opens).bind fun written =>
                .ok ((0 : Int), text, written.2)).map (fun r => (r.1, r.2.1)) = .ok result →
              result = (0, text) := by
            intro before result is
            cases wrote : Inirw.iniSetString { gBuffer := some before } sect key (some default) opens with
            | error fault =>
              rw [wrote] at is
              cases is
            | ok _ =>
              rw [wrote] at is
              exact (Except.ok.inj is).symm
          exact (isDefault second).trans (isDefault first).symm

/-- Setting a value and getting it: the value is returned, and no other pair has another value than
before, when the splice leaves the lines next to it as they were. -/
theorem iniGetValue_iniSetString {gBuffer sect key value : Text} (isSect : Word sect) (isKey : Word key)
    (isValue : Word value) (sectFits : sect.length + 2 < sizeLine)
    (fits : (setting key value).length < sizeLine) {opens : Bool} {after : Inirw}
    (returns : Inirw.iniSetString { gBuffer := some gBuffer } (some sect) key (some value) opens =
      .ok (1, after))
    (clean : splicesCleanly gBuffer sect key value = true) {maxlen : Nat} (room : 0 < maxlen)
    (defvalue : Option Text) (opensAgain : Bool) :
    after.iniGetValue (some sect) key maxlen defvalue opensAgain = .ok (1, value.take (maxlen - 1), after) ∧
      ∀ other otherKey, Apart sect key other otherKey →
        answer after other otherKey maxlen none opensAgain =
            answer { gBuffer := some gBuffer } other otherKey maxlen none opensAgain ∧
          ∀ earlier later,
            answer { gBuffer := some gBuffer } other otherKey maxlen defvalue opensAgain = .ok earlier →
            answer after other otherKey maxlen defvalue opensAgain = .ok later → later = earlier := by
  obtain ⟨text, rfl, found, others⟩ := sees_iniSetString isSect isKey isValue sectFits fits returns clean
  refine ⟨?_, fun other otherKey apart => ⟨?_, ?_⟩⟩
  · simp only [Inirw.iniGetValue, found, bind, Except.bind, Inirw.copied, if_neg (Nat.ne_of_gt room)]
    rfl
  · have same := others other otherKey apart
    simp only [answer, Inirw.iniGetValue, same]
    cases findValue gBuffer other otherKey with
    | error fault => rfl
    | ok value =>
      cases value with
      | none => rfl
      | some value =>
        cases copies : Inirw.copied maxlen value with
        | error fault => simp only [bind, Except.bind, Except.map, copies]
        | ok text => simp only [bind, Except.bind, Except.map, pure, Except.pure, copies]
  · intro earlier later first second
    exact answer_congr (others other otherKey apart) maxlen defvalue opensAgain first second

theorem letterWord (c : Char) (isLetter : c ∈ ['k', 's', 'w', 'x']) : Word [c] := by
  simp only [List.mem_cons, List.not_mem_nil, or_false] at isLetter
  rcases isLetter with rfl | rfl | rfl | rfl <;>
    exact word_singleton ⟨by decide, by decide, by decide, by decide⟩ (by decide) (by decide)

/-- The remark behind the old value stays. -/
theorem iniGetValue_iniSetString_remark :
    ∃ after : Inirw,
      Inirw.iniSetString ⟨some "[s]\r\nk=v ;r\r\n".toList⟩ (some ['s']) ['k'] (some ['w']) true =
        .ok (1, after) ∧
        after.gBuffer = some "[s]\r\nk=w ;r\r\n".toList ∧
        after.iniGetValue (some ['s']) ['k'] 100 none true = .ok (1, ['w'], after) := by
  have returns : Inirw.iniSetString ⟨some "[s]\r\nk=v ;r\r\n".toList⟩ (some ['s']) ['k'] (some ['w']) true =
      .ok (1, ⟨some "[s]\r\nk=w ;r\r\n".toList⟩) := by
    decide +kernel
  have law := iniGetValue_iniSetString (letterWord 's' (by simp)) (letterWord 'k' (by simp))
      (letterWord 'w' (by simp))
    (by decide) (by decide) returns (by decide +kernel) (show 0 < 100 by decide) none true
  exact ⟨_, returns, rfl, law.1⟩

/-- Behind a last line without a line end the new line is not a line of its own. -/
theorem value_lost_without_lineEnd :
    Word ['s'] ∧ Word ['x'] ∧ Word ['w'] ∧
      ∃ after : Inirw,
        Inirw.iniSetString ⟨some "[s]\r\nk=v".toList⟩ (some ['s']) ['x'] (some ['w']) true = .ok (1, after) ∧
          after.iniGetValue (some ['s']) ['x'] 100 none true = .ok (0, [], after) ∧
          answer ⟨some "[s]\r\nk=v".toList⟩ (some ['s']) ['k'] 100 none true = .ok (1, ['v']) ∧
          answer after (some ['s']) ['k'] 100 none true = .ok (1, "vx=w".toList) := by
  refine ⟨letterWord 's' (by simp), letterWord 'x' (by simp), letterWord 'w' (by simp),
    ⟨some "[s]\r\nk=vx=w;\r\n".toList⟩, ?_⟩
  decide +kernel

end CallCenter.Verified.IniSetGet
