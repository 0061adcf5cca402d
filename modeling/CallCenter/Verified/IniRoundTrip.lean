import CallCenter.Foundation.Runs
import CallCenter.Foundation.OrderedMap
import CallCenter.Model.IniFile

/-!
# A saved configuration means what was loaded

`load` strips white space, gathers comments over several lines and drops what it cannot parse;
`saveas` writes another layout in the order of the map.  Every state `load` leaves is well formed:
its keys, values, names and comment lines are trimmed and hold none of the characters that would
end them.  A well formed state, written and read again line by line, is built up once more.
-/

namespace CallCenter.Verified.IniRoundTrip

open Std (ExtTreeMap)
open CallCenter.Foundation
open CallCenter.Foundation.Text
open CallCenter.Model

/-! ## Reading lines -/

/-- No newline and no zero byte. -/
def Clean (text : Text) : Prop := '\n' ∉ text ∧ '\x00' ∉ text

theorem Clean.subset {text part : Text} (clean : Clean text) (sub : part ⊆ text) : Clean part :=
  ⟨fun mem => clean.1 (sub mem), fun mem => clean.2 (sub mem)⟩

theorem Clean.append {front back : Text} (cleanFront : Clean front) (cleanBack : Clean back) :
    Clean (front ++ back) :=
  ⟨by simp [cleanFront.1, cleanBack.1], by simp [cleanFront.2, cleanBack.2]⟩

theorem cString_of_clean {text : Text} (noZero : '\x00' ∉ text) : cString text = text := by
  rw [cString, List.takeWhile_eq_self_iff]
  intro c mem
  simpa using ne_of_mem_of_not_mem mem noZero

/-- A line longer than the buffer is read in chunks. -/
theorem getlineFrom_chunk {body : Text} (clean : Clean body) (long : iniBufSize - 1 ≤ body.length) (rest : Text)
    (fuel : Nat) (buf : Text) :
    getlineFrom (fuel + 1) buf (body ++ rest) =
      getlineFrom fuel (buf ++ body.take (iniBufSize - 1)) (body.drop (iniBufSize - 1) ++ rest) := by
  have cut : Clean (body.take (iniBufSize - 1)) := clean.subset (List.take_subset _ _)
  have taken : (body.take (iniBufSize - 1)).length = iniBufSize - 1 := by simp [long]
  have filled : body.take (iniBufSize - 1) ≠ [] := by
    intro empty
    rw [empty] at taken
    simp [iniBufSize] at taken
  have unended : (body.take (iniBufSize - 1)).getLast? ≠ some '\n' :=
    fun last => cut.1 (List.mem_of_getLast? last)
  rw [getlineFrom]
  simp only [fgets_long clean.1 long, cString_of_clean cut.2, filled, unended, if_false, ne_eq,
    not_false_eq_true, Bool.not_false, and_self, if_true]

theorem length_drop_chunk {body : Text} {fuel : Nat} (long : iniBufSize - 1 ≤ body.length)
    (enough : body.length < fuel + 1) : (body.drop (iniBufSize - 1)).length < fuel := by
  rw [List.length_drop]
  simp only [iniBufSize] at long ⊢
  omega

theorem getlineFrom_line {body : Text} (clean : Clean body) (rest : Text) {fuel : Nat} (buf : Text)
    (enough : body.length < fuel) :
    getlineFrom fuel buf (body ++ '\n' :: rest) = (buf ++ (body ++ ['\n']), rest) := by
  induction fuel generalizing body buf with
  | zero => omega
  | succ fuel inductionHypothesis =>
    by_cases fits : body.length < iniBufSize - 1
    · -- The last chunk of the line brings its newline.
      have noZero : '\x00' ∉ body ++ ['\n'] := by simp [clean.2]
      rw [getlineFrom]
      simp only [fgets_short clean.1 fits, cString_of_clean noZero]
      simp
    · have long : iniBufSize - 1 ≤ body.length := by omega
      rw [getlineFrom_chunk clean long, inductionHypothesis (clean.subset (List.drop_subset _ _)) _
        (length_drop_chunk long enough), List.append_assoc, ← List.append_assoc (body.take _),
        List.take_append_drop]

theorem getline_line {body : Text} (clean : Clean body) (rest : Text) :
    getline (body ++ '\n' :: rest) = (body ++ ['\n'], rest) := by
  rw [getline, getlineFrom_line clean rest [] (by simp)]
  rfl

/-- Whatever the file holds, `getline` delivers one line without zero bytes. -/
theorem line_getlineFrom {fuel : Nat} {buf file : Text} (line : Line buf) (open_ : buf.getLast? ≠ some '\n')
    (noZero : '\x00' ∉ buf) :
    Line (getlineFrom fuel buf file).1 ∧ '\x00' ∉ (getlineFrom fuel buf file).1 := by
  induction fuel generalizing buf file with
  | zero => exact ⟨line, noZero⟩
  | succ fuel inductionHypothesis =>
    have chunk : Line (cString (fgets (iniBufSize - 1) file).1) := (line_fgets _ file).takeWhile _
    have visible : '\x00' ∉ cString (fgets (iniBufSize - 1) file).1 :=
      fun mem => by simpa using List.mem_takeWhile_imp mem
    have joined := line.append open_ chunk
    have joinedZero : '\x00' ∉ buf ++ cString (fgets (iniBufSize - 1) file).1 := by simp [noZero, visible]
    rw [getlineFrom]
    dsimp only
    split
    · exact ⟨line, noZero⟩
    · split
      · next goesOn =>
        refine inductionHypothesis joined ?_ joinedZero
        rw [List.getLast?_append_of_ne_nil _ goesOn.1]
        exact goesOn.2.1
      · exact ⟨joined, joinedZero⟩

theorem line_getline (file : Text) : Line (getline file).1 ∧ '\x00' ∉ (getline file).1 :=
  line_getlineFrom .nil (by simp) (by simp)

/-! ## The default comment flags -/

/-- A character that starts a comment. -/
def isFlag (c : Char) : Bool := c == '#' || c == ';'

theorem isspace_of_isFlag {c : Char} (flag : isFlag c = true) : isspace c = false := by
  simp only [isFlag, Bool.or_eq_true, beq_iff_eq] at flag
  rcases flag with rfl | rfl <;> decide

theorem isComment_cons (c : Char) (line : Text) : isComment defaultFlags (c :: line) = isFlag c := by
  simp [isComment, defaultFlags, isFlag, List.isPrefixOf, Bool.beq_comm (a := c)]

theorem beforeFlag_singleton (flag : Char) (line : Text) :
    beforeFlag [flag] line = line.takeWhile (· != flag) := by
  induction line with
  | nil => rfl
  | cons c line inductionHypothesis =>
    by_cases same : flag = c
    · simp [beforeFlag, List.isPrefixOf, same]
    · simp [beforeFlag, List.isPrefixOf, same, Ne.symm same, inductionHypothesis]

theorem beforeFlags_default (line : Text) :
    beforeFlags defaultFlags line = line.takeWhile fun c => !isFlag c := by
  simp only [beforeFlags, defaultFlags, List.foldl_cons, List.foldl_nil, beforeFlag_singleton,
    List.takeWhile_takeWhile]
  congr 1
  funext c
  cases first : c == '#' <;> cases second : c == ';' <;> simp [isFlag, bne, first, second]

/-! ## Well formed sections -/

/-- A line of a comment, as it stands in the file. -/
structure CommentLine (line : Text) : Prop where
  trimmed : Trimmed line
  clean : Clean line
  flagged : ∃ c rest, line = c :: rest ∧ isFlag c = true

/-- A comment is put together from comment lines. -/
def Comment (comment : Text) : Prop :=
  ∃ lines : List Text, (∀ line ∈ lines, CommentLine line) ∧ comment = lines.foldl addComment []

/-- A text that no comment cuts short. -/
structure Plain (text : Text) : Prop where
  trimmed : Trimmed text
  clean : Clean text
  unflagged : ∀ c ∈ text, isFlag c = false

structure WellFormedItem (item : IniItem) : Prop where
  key : Plain item.key
  noEquals : '=' ∉ item.key
  noBracket : item.key.head? ≠ some '['
  value : Plain item.value
  comment : Comment item.comment

structure WellFormedName (name : Text) : Prop where
  clean : Clean name
  unflagged : ∀ c ∈ name, isFlag c = false
  noBracket : ']' ∉ name

structure WellFormedSection (name : Text) (sect : IniSection) : Prop where
  sameName : sect.name = name
  named : WellFormedName name
  comment : Comment sect.comment
  -- The default section has no header a comment could belong to.
  default : name = [] → sect.comment = []
  items : ∀ item ∈ sect.items, WellFormedItem item

def WellFormedSections (sections : IniSections) : Prop :=
  ∀ name sect, sections[name]? = some sect → WellFormedSection name sect

structure WellFormed (state : Loading) : Prop where
  sections : WellFormedSections state.sections
  default : [] ∈ state.sections
  comment : Comment state.comment

theorem comment_nil : Comment [] := ⟨[], by simp, rfl⟩

theorem Comment.add {comment line : Text} (isComment : Comment comment) (isLine : CommentLine line) :
    Comment (addComment comment line) := by
  obtain ⟨lines, areLines, rfl⟩ := isComment
  refine ⟨lines ++ [line], ?_, by simp⟩
  intro member mem
  rcases List.mem_append.mp mem with earlier | last
  · exact areLines member earlier
  · rwa [List.mem_singleton.mp last]

/-- A comment behind an item goes on with the last line of the comment before it. -/
theorem Comment.append {comment behind : Text} (isComment : Comment comment) (isLine : CommentLine behind) :
    Comment (comment ++ behind) := by
  obtain ⟨lines, areLines, rfl⟩ := isComment
  cases lines using List.reverseRecOn with
  | nil => exact ⟨[behind], by simpa using isLine, rfl⟩
  | append_singleton lines line =>
    have before := areLines line (by simp)
    have longer : CommentLine (line ++ behind) := by
      obtain ⟨c, rest, rfl, flag⟩ := before.flagged
      exact ⟨before.trimmed.append isLine.trimmed, before.clean.append isLine.clean, c, rest ++ behind,
        rfl, flag⟩
    refine ⟨lines ++ [line ++ behind], ?_, ?_⟩
    · intro member mem
      rcases List.mem_append.mp mem with earlier | last
      · exact areLines member (List.mem_append_left _ earlier)
      · rwa [List.mem_singleton.mp last]
    · simp only [List.foldl_append, List.foldl_cons, List.foldl_nil, addComment]
      split <;> simp

/-! ## What a line leaves is well formed -/

theorem Plain.trim {text : Text} (clean : Clean text) (unflagged : ∀ c ∈ text, isFlag c = false) :
    Plain (trim text) :=
  ⟨trimmed_trim text, clean.subset fun _ => mem_of_mem_trim, fun c mem => unflagged c (mem_of_mem_trim mem)⟩

/-- A line is a comment, or plain text with a comment or nothing behind it. -/
theorem splitComment_cases {line : Text} (trimmed : Trimmed line) (clean : Clean line) :
    (CommentLine line ∧ splitComment defaultFlags line = (line, [])) ∨
      (Plain (splitComment defaultFlags line).1 ∧
        ((splitComment defaultFlags line).2 = [] ∨ CommentLine (splitComment defaultFlags line).2)) := by
  rw [splitComment, beforeFlags_default]
  cases comment : isComment defaultFlags line with
  | true =>
    refine .inl ⟨⟨trimmed, clean, ?_⟩, by simp [trim_of_trimmed trimmed]⟩
    cases line with
    | nil => cases comment
    | cons c rest => exact ⟨c, rest, rfl, by rwa [isComment_cons] at comment⟩
  | false =>
    refine .inr ?_
    simp only [Bool.false_eq_true, if_false]
    constructor
    · refine .trim (clean.subset (List.takeWhile_prefix _).subset) ?_
      intro c mem
      simpa using List.mem_takeWhile_imp mem
    · rw [drop_length_takeWhile]
      have suffix : (line.dropWhile fun c => !isFlag c) <:+ line := List.dropWhile_suffix _
      have starts := List.head?_dropWhile_not (fun c => !isFlag c) line
      cases rest : line.dropWhile fun c => !isFlag c with
      | nil => exact .inl rfl
      | cons c behind =>
        rw [rest] at starts suffix
        have flag : isFlag c = true := by simpa using starts
        refine .inr ⟨trimmed.suffix suffix ?_, clean.subset suffix.subset, c, behind, rfl, flag⟩
        intro first is
        cases is
        exact isspace_of_isFlag flag

theorem parse_wellFormed {text key value comment : Text} (plain : Plain text)
    (noBracket : text.head? ≠ some '[')
    (parsed : parse text '=' = some (key, value)) (isComment : Comment comment) :
    WellFormedItem { key, value, comment } := by
  rw [parse] at parsed
  split at parsed
  · simp only [Option.some.injEq, Prod.mk.injEq] at parsed
    obtain ⟨rfl, rfl⟩ := parsed
    have before : text.takeWhile (· ≠ '=') ⊆ text := (List.takeWhile_prefix _).subset
    have behind : (text.dropWhile (· ≠ '=')).tail ⊆ text :=
      List.Subset.trans (List.tail_subset _) (List.dropWhile_suffix _).subset
    exact
      { key := .trim (plain.clean.subset before) fun c mem => plain.unflagged c (before mem)
        noEquals := by
          intro mem
          simpa using List.mem_takeWhile_imp (mem_of_mem_trim mem)
        noBracket := by
          intro first
          have start := head?_trim (fun d is => plain.trimmed.head d (head?_takeWhile is)) first
          exact noBracket (head?_takeWhile start)
        value := .trim (plain.clean.subset behind) fun c mem => plain.unflagged c (behind mem)
        comment := isComment }
  · cases parsed

theorem WellFormedSections.insert {sections : IniSections} {name : Text} {sect : IniSection}
    (wellFormed : WellFormedSections sections) (new : WellFormedSection name sect) :
    WellFormedSections (sections.insert name sect) := by
  intro asked found is
  rw [ExtTreeMap.getElem?_insert] at is
  split at is
  · next same =>
    cases is
    rwa [← Std.LawfulEqCmp.eq_of_compare same]
  · exact wellFormed asked found is

theorem WellFormedSections.push {sections pushed : IniSections} {current : Option Text} {item : IniItem}
    (wellFormed : WellFormedSections sections) (new : WellFormedItem item)
    (push : pushItem sections current item = .ok pushed) : WellFormedSections pushed := by
  cases current with
  | none => cases push
  | some name =>
    cases push
    intro asked found is
    rw [ExtTreeMap.getElem?_modify] at is
    split at is
    · next same =>
      obtain rfl := Std.LawfulEqCmp.eq_of_compare same
      obtain ⟨sect, present, rfl⟩ := Option.map_eq_some_iff.mp is
      have before := wellFormed name sect present
      refine { before with items := ?_ }
      intro member mem
      rcases List.mem_append.mp mem with earlier | last
      · exact before.items member earlier
      · rwa [List.mem_singleton.mp last]
    · exact wellFormed asked found is

theorem mem_of_pushItem {sections pushed : IniSections} {current : Option Text} {item : IniItem}
    (push : pushItem sections current item = .ok pushed) {name : Text} (present : name ∈ sections) :
    name ∈ pushed := by
  cases current with
  | none => cases push
  | some current =>
    cases push
    exact ExtTreeMap.mem_modify.mpr present

theorem loadHeader_keeps {state : Loading} {line : Text} (wellFormed : WellFormed state)
    (plain : Plain ('[' :: line)) : WellFormed (loadHeader state line).2 := by
  simp only [loadHeader]
  split
  · exact { wellFormed with }
  · split
    · exact { wellFormed with }
    · next named =>
      split
      · exact { wellFormed with }
      · have part : line.takeWhile (· ≠ ']') ⊆ '[' :: line :=
          List.Subset.trans (List.takeWhile_prefix _).subset (List.subset_cons_self _ _)
        refine ⟨wellFormed.sections.insert ?_, by simp [wellFormed.default], comment_nil⟩
        exact
          { sameName := rfl
            named :=
              { clean := plain.clean.subset part
                unflagged := fun c mem => plain.unflagged c (part mem)
                noBracket := fun mem => by simpa using List.mem_takeWhile_imp mem }
            comment := wellFormed.comment
            default := fun empty => absurd empty named
            items := fun item mem => nomatch mem }

theorem loadItem_keeps {state after : Loading} {line : Text} (wellFormed : WellFormed state)
    (plain : Plain line)
    (noBracket : line.head? ≠ some '[') (loaded : loadItem state line = .ok after) : WellFormed after := by
  rw [loadItem] at loaded
  split at loaded
  · next key value parsed =>
    have item := parse_wellFormed plain noBracket parsed wellFormed.comment
    cases pushed : pushItem state.sections state.current { key, value, comment := state.comment } with
    | error fault =>
      rw [pushed] at loaded
      cases loaded
    | ok sections =>
      rw [pushed] at loaded
      cases loaded
      exact ⟨wellFormed.sections.push item pushed, mem_of_pushItem pushed wellFormed.default, comment_nil⟩
  · cases loaded
    exact { wellFormed with comment := comment_nil }

theorem loadText_keeps {state after : Loading} {text : Text} {returned : Option Int}
    (wellFormed : WellFormed state) (shape : CommentLine text ∨ Plain text)
    (loaded : loadText defaultFlags state text = .ok (returned, after)) :
    WellFormed after := by
  cases text with
  | nil =>
    cases loaded
    exact wellFormed
  | cons c line =>
    rw [loadText, isComment_cons] at loaded
    rcases shape with ⟨_, _, flag, rest, same, isOne⟩ | plain
    · -- A comment line starts with no bracket.
      cases same
      have noBracket : c ≠ '[' := by
        rintro rfl
        cases isOne
      rw [if_neg noBracket, if_pos isOne] at loaded
      cases loaded
      exact { wellFormed with comment := wellFormed.comment.add ⟨‹_›, ‹_›, c, line, rfl, isOne⟩ }
    · rw [plain.unflagged c List.mem_cons_self] at loaded
      split at loaded
      · next bracket =>
        cases bracket
        have header := loadHeader_keeps wellFormed plain
        rwa [Except.ok.inj loaded] at header
      · next noBracket =>
        cases item : loadItem state (c :: line) with
        | error fault =>
          rw [item] at loaded
          cases loaded
        | ok stored =>
          rw [item] at loaded
          cases loaded
          exact loadItem_keeps wellFormed plain (by simpa using noBracket) item

theorem loadLine_keeps {state after : Loading} {line : Text} {returned : Option Int}
    (wellFormed : WellFormed state) (isLine : Line line) (noZero : '\x00' ∉ line)
    (loaded : loadLine defaultFlags state line = .ok (returned, after)) :
    WellFormed after := by
  have trimmed := trimmed_trim (trimright '\r' (trimright '\n' line))
  have clean : Clean (trim (trimright '\r' (trimright '\n' line))) := by
    constructor
    · exact fun mem => isLine.newline_not_mem_trimright (mem_of_mem_rdropWhile (mem_of_mem_trim mem))
    · exact fun mem => noZero (mem_of_mem_rdropWhile (mem_of_mem_rdropWhile (mem_of_mem_trim mem)))
  rw [loadLine] at loaded
  rcases splitComment_cases trimmed clean with ⟨isComment, whole⟩ | ⟨plain, behind⟩
  · rw [whole] at loaded
    have same : WellFormed { state with comment := state.comment ++ [] } :=
      { wellFormed with comment := by simpa using wellFormed.comment }
    exact loadText_keeps same (.inl isComment) loaded
  · have longer : WellFormed
        { state with
          comment := state.comment ++ (splitComment defaultFlags
            (trim (trimright '\r' (trimright '\n' line)))).2 } := by
      refine { wellFormed with comment := ?_ }
      rcases behind with none | isComment
      · simpa [none] using wellFormed.comment
      · exact wellFormed.comment.append isComment
    exact loadText_keeps longer (.inr plain) loaded

theorem loadFrom_keeps {fuel : Nat} {file : Text} {state : Loading} {code : Int} {sections : IniSections}
    (wellFormed : WellFormed state) (loaded : loadFrom defaultFlags fuel file state = .ok (code, sections)) :
    WellFormedSections sections ∧ [] ∈ sections := by
  induction fuel generalizing file state with
  | zero =>
    cases loaded
    exact ⟨wellFormed.sections, wellFormed.default⟩
  | succ fuel inductionHypothesis =>
    rw [loadFrom] at loaded
    have line := line_getline file
    dsimp only at loaded
    split at loaded
    · cases loaded
      exact ⟨wellFormed.sections, wellFormed.default⟩
    · cases read : loadLine defaultFlags state (getline file).1 with
      | error fault =>
        rw [read] at loaded
        cases loaded
      | ok result =>
        obtain ⟨returned, after⟩ := result
        have next := loadLine_keeps wellFormed line.1 line.2 read
        rw [read] at loaded
        cases returned with
        | none => exact inductionHypothesis next loaded
        | some code =>
          cases loaded
          exact ⟨next.sections, next.default⟩

/-! ## What `saveas` writes is read back -/

/-- One round of the loop of `load` that goes on, for a line of a written file. -/
def ReadsLine (before : Loading) (line : Text) (after : Loading) : Prop :=
  Clean line ∧ loadLine defaultFlags before (line ++ delim) = .ok (none, after)

/-- A text of whole lines takes the loop of `load` from one state to another. -/
def Reads (before : Loading) (text : Text) (after : Loading) : Prop :=
  ∃ lines : List Text, text = lines.flatMap (· ++ delim) ∧ Run ReadsLine before lines after

theorem Reads.nil (state : Loading) : Reads state [] state := ⟨[], rfl, .done state⟩

theorem Reads.append {before middle after : Loading} {first second : Text} (reads : Reads before first middle)
    (goesOn : Reads middle second after) : Reads before (first ++ second) after := by
  obtain ⟨lines, rfl, run⟩ := reads
  obtain ⟨others, rfl, rest⟩ := goesOn
  exact ⟨lines ++ others, by simp, run.append rest⟩

theorem Reads.line {before after : Loading} {line : Text} (reads : ReadsLine before line after) :
    Reads before (line ++ delim) after :=
  ⟨[line], by simp, .single reads⟩

theorem loadFrom_run {before after : Loading} {lines : List Text} (run : Run ReadsLine before lines after)
    {fuel : Nat} (enough : lines.length < fuel) :
    loadFrom defaultFlags fuel (lines.flatMap (· ++ delim)) before = .ok (0, after.sections) := by
  induction run generalizing fuel with
  | done state =>
    cases fuel with
    | zero => omega
    | succ fuel => rfl
  | @next before middle after line lines reads _ inductionHypothesis =>
    cases fuel with
    | zero => omega
    | succ fuel =>
      have shape : (line :: lines).flatMap (· ++ delim) = line ++ '\n' :: lines.flatMap (· ++ delim) := by
        simp [delim]
      have whole : line ++ ['\n'] ≠ [] := by simp
      rw [shape, loadFrom, getline_line reads.1]
      dsimp only
      rw [if_neg whole, show line ++ ['\n'] = line ++ delim from rfl, reads.2]
      exact inductionHypothesis (by simpa using enough)

theorem length_le_flatMap (lines : List Text) : lines.length ≤ (lines.flatMap (· ++ delim)).length := by
  induction lines with
  | nil => simp
  | cons line lines inductionHypothesis =>
    simp only [List.length_cons, List.flatMap_cons, List.length_append, delim, List.length_nil] at *
    omega

theorem Reads.loadFrom {before after : Loading} {text : Text} (reads : Reads before text after) :
    loadFrom defaultFlags (text.length + 1) text before = .ok (0, after.sections) := by
  obtain ⟨lines, rfl, run⟩ := reads
  exact loadFrom_run run (Nat.lt_succ_of_le (length_le_flatMap lines))

/-- A trimmed line that was written with a newline is read as it was. -/
theorem loadLine_trimmed {line : Text} (trimmed : Trimmed line) (state : Loading) :
    loadLine defaultFlags state (line ++ delim) =
      loadText defaultFlags { state with comment := state.comment ++ (splitComment defaultFlags line).2 }
        (splitComment defaultFlags line).1 := by
  rw [loadLine, delim, trimright_concat_self, trimright_of_trimmed trimmed (by decide),
    trimright_of_trimmed trimmed (by decide), trim_of_trimmed trimmed]

theorem loadLine_comment {line : Text} (isComment : CommentLine line) (state : Loading) :
    loadLine defaultFlags state (line ++ delim) =
      .ok (none, { state with comment := addComment state.comment line }) := by
  rw [loadLine_trimmed isComment.trimmed]
  obtain ⟨c, rest, rfl, flag⟩ := isComment.flagged
  have noBracket : c ≠ '[' := by
    rintro rfl
    cases flag
  rw [splitComment, isComment_cons, flag]
  simp [trim_of_trimmed isComment.trimmed, loadText, noBracket, isComment_cons, flag]

theorem splitComment_plain {line : Text} (plain : Plain line) :
    splitComment defaultFlags line = (line, []) := by
  have noComment : isComment defaultFlags line = false := by
    cases line with
    | nil => rfl
    | cons c rest => rw [isComment_cons, plain.unflagged c List.mem_cons_self]
  have whole : (line.takeWhile fun c => !isFlag c) = line := by
    rw [List.takeWhile_eq_self_iff]
    intro c mem
    simp [plain.unflagged c mem]
  simp [splitComment, noComment, beforeFlags_default, whole, trim_of_trimmed plain.trimmed]

theorem loadLine_plain {line : Text} (plain : Plain line) (state : Loading) :
    loadLine defaultFlags state (line ++ delim) = loadText defaultFlags state line := by
  rw [loadLine_trimmed plain.trimmed, splitComment_plain plain, List.append_nil]

/-! ### Comments, items and headers -/

theorem addComment_ne_nil {comment line : Text} (isComment : CommentLine line) :
    addComment comment line ≠ [] := by
  obtain ⟨c, rest, rfl, _⟩ := isComment.flagged
  rw [addComment]
  split <;> simp

/-- Comment lines one below the other are gathered as they were joined. -/
theorem reads_commentLines {lines : List Text} (areLines : ∀ line ∈ lines, CommentLine line) (state : Loading)
    (nonempty : state.comment ≠ []) :
    ∃ text, lines.foldl addComment state.comment ++ delim = state.comment ++ delim ++ text ∧
      Reads state text { state with comment := lines.foldl addComment state.comment } := by
  induction lines generalizing state with
  | nil => exact ⟨[], by simp, .nil state⟩
  | cons line lines inductionHypothesis =>
    have isComment := areLines line List.mem_cons_self
    obtain ⟨text, joined, reads⟩ :=
      inductionHypothesis (fun member mem => areLines member (List.mem_cons_of_mem _ mem))
      { state with comment := addComment state.comment line } (addComment_ne_nil isComment)
    refine ⟨line ++ delim ++ text, ?_,
      (Reads.line ⟨isComment.clean, loadLine_comment isComment state⟩).append reads⟩
    rw [List.foldl_cons, joined]
    simp [addComment, nonempty]

theorem reads_comment {comment : Text} (isComment : Comment comment) (state : Loading)
    (none : state.comment = []) :
    Reads state (commentText comment) { state with comment } := by
  obtain ⟨lines, areLines, rfl⟩ := isComment
  cases lines with
  | nil =>
    have same : { state with comment := [] } = state := by rw [← none]
    rw [List.foldl_nil, same]
    exact .nil state
  | cons line lines =>
    have isComment := areLines line List.mem_cons_self
    have first : addComment [] line = line := rfl
    obtain ⟨c, rest, shape, _⟩ := isComment.flagged
    have nonempty : line ≠ [] := by simp [shape]
    obtain ⟨text, joined, reads⟩ := reads_commentLines
      (fun member mem => areLines member (List.mem_cons_of_mem _ mem)) { state with comment := line } nonempty
    have start : ReadsLine state line { state with comment := line } :=
      ⟨isComment.clean, by rw [loadLine_comment isComment, none, first]⟩
    have whole : commentText ((line :: lines).foldl addComment []) = line ++ delim ++ text := by
      rw [commentText, List.foldl_cons, first, if_pos, joined]
      intro empty
      rw [empty] at joined
      simp [delim, shape] at joined
    rw [whole]
    exact (Reads.line start).append reads

theorem parse_written {key value : Text} (trimmedKey : Trimmed key) (noEquals : '=' ∉ key)
    (trimmedValue : Trimmed value) : parse (key ++ ['='] ++ value) '=' = some (key, value) := by
  have before : ∀ c ∈ key, decide (c ≠ '=') = true := by
    intro c mem
    simpa using ne_of_mem_of_not_mem mem noEquals
  rw [parse, if_pos (by simp), List.append_assoc, List.takeWhile_append_of_pos before,
    List.dropWhile_append_of_pos before]
  simp [trim_of_trimmed trimmedKey, trim_of_trimmed trimmedValue]

theorem WellFormedItem.plain {item : IniItem} (wellFormed : WellFormedItem item) :
    Plain (item.key ++ ['='] ++ item.value) where
  trimmed := (wellFormed.key.trimmed.append (trimmed_singleton (by decide))).append wellFormed.value.trimmed
  clean := (wellFormed.key.clean.append ⟨by decide, by decide⟩).append wellFormed.value.clean
  unflagged := by
    intro c mem
    simp only [List.mem_append, List.mem_singleton] at mem
    rcases mem with (inKey | rfl) | inValue
    · exact wellFormed.key.unflagged c inKey
    · rfl
    · exact wellFormed.value.unflagged c inValue

theorem reads_item {item : IniItem} (wellFormed : WellFormedItem item) (sections : IniSections) (name : Text) :
    Reads { sections, current := some name, comment := [] } (itemText item)
      { sections := sections.modify name fun sect => { sect with items := sect.items ++ [item] }
        current := some name
        comment := [] } := by
  refine (reads_comment wellFormed.comment _ rfl).append (.line ⟨wellFormed.plain.clean, ?_⟩)
  rw [loadLine_plain wellFormed.plain]
  obtain ⟨c, rest, shape⟩ : ∃ c rest, item.key ++ ['='] ++ item.value = c :: rest := by
    cases item.key <;> simp
  have noBracket : c ≠ '[' := by
    have key := wellFormed.noBracket
    rintro rfl
    cases parts : item.key with
    | nil =>
      rw [parts] at shape
      cases shape
    | cons d key' =>
      rw [parts] at key shape
      cases shape
      exact key rfl
  have plain := wellFormed.plain
  have parsed := parse_written wellFormed.key.trimmed wellFormed.noEquals wellFormed.value.trimmed
  rw [shape] at plain parsed ⊢
  simp only [loadText, if_neg noBracket, isComment_cons, plain.unflagged c List.mem_cons_self,
    Bool.false_eq_true,
    if_false, loadItem, parsed, pushItem]
  rfl

/-- The items of a section are stored behind those it has. -/
theorem reads_items {items : List IniItem} (wellFormed : ∀ item ∈ items, WellFormedItem item)
    (sections : IniSections) (name : Text) :
    Reads { sections, current := some name, comment := [] } (items.flatMap itemText)
      { sections := sections.modify name fun sect => { sect with items := sect.items ++ items }
        current := some name
        comment := [] } := by
  induction items generalizing sections with
  | nil =>
    have same : (sections.modify name fun sect => { sect with items := sect.items ++ [] }) = sections := by
      apply ExtTreeMap.ext_getElem?
      intro asked
      rw [ExtTreeMap.getElem?_modify]
      split <;> simp_all
    rw [same]
    exact .nil _
  | cons item items inductionHypothesis =>
    have rest := inductionHypothesis (fun member mem => wellFormed member (List.mem_cons_of_mem _ mem))
      (sections.modify name fun sect => { sect with items := sect.items ++ [item] })
    have first := reads_item (wellFormed item List.mem_cons_self) sections name
    rw [OrderedMap.modify_modify] at rest
    simpa using first.append rest

theorem WellFormedName.plain {name : Text} (wellFormed : WellFormedName name) :
    Plain (['['] ++ name ++ [']']) where
  trimmed := by
    refine ⟨fun c first => ?_, fun c last => ?_⟩
    · cases first
      rfl
    · rw [List.getLast?_concat] at last
      cases last
      rfl
  clean := (Clean.append ⟨by decide, by decide⟩ wellFormed.clean).append ⟨by decide, by decide⟩
  unflagged := by
    intro c mem
    simp only [List.mem_append, List.mem_singleton] at mem
    rcases mem with (rfl | inName) | rfl
    · rfl
    · exact wellFormed.unflagged c inName
    · rfl

theorem reads_header {name : Text} (wellFormed : WellFormedName name) (named : name ≠ []) (state : Loading)
    (new : name ∉ state.sections) :
    Reads state (['['] ++ name ++ [']'] ++ delim)
      { sections := state.sections.insert name { name, comment := state.comment }
        current := some name
        comment := [] } := by
  refine .line ⟨wellFormed.plain.clean, ?_⟩
  have before : ∀ c ∈ name, decide (c ≠ ']') = true := by
    intro c mem
    simpa using ne_of_mem_of_not_mem mem wellFormed.noBracket
  have takes : (name ++ [']']).takeWhile (· ≠ ']') = name := by
    rw [List.takeWhile_append_of_pos before]
    simp
  rw [loadLine_plain wellFormed.plain, List.append_assoc, List.singleton_append, loadText, if_pos rfl]
  simp only [loadHeader, takes]
  simp [named, new]

/-! ### Sections -/

theorem sectionText_eq (name : Text) (sect : IniSection) :
    sectionText (name, sect) =
      commentText sect.comment ++ (if name ≠ [] then ['['] ++ name ++ [']'] ++ delim else [])
        ++ sect.items.flatMap itemText := rfl

theorem modify_insert (sections : IniSections) (name : Text) (first : IniSection)
    (change : IniSection → IniSection) :
    (sections.insert name first).modify name change = sections.insert name (change first) := by
  apply ExtTreeMap.ext_getElem?
  intro asked
  rw [ExtTreeMap.getElem?_modify]
  by_cases same : name = asked
  · subst same
    simp
  · simp [ExtTreeMap.getElem?_insert, same]

theorem reads_section {name : Text} {sect : IniSection} (wellFormed : WellFormedSection name sect)
    (named : name ≠ []) {sections : IniSections} (new : name ∉ sections) (current : Option Text) :
    Reads { sections, current, comment := [] } (sectionText (name, sect))
      { sections := sections.insert name sect, current := some name, comment := [] } := by
  have comment := reads_comment wellFormed.comment { sections, current, comment := [] } rfl
  have header := reads_header wellFormed.named named { sections, current, comment := sect.comment } new
  have items := reads_items wellFormed.items (sections.insert name { name, comment := sect.comment }) name
  rw [modify_insert] at items
  have whole := (comment.append header).append items
  have same : ({ name, comment := sect.comment, items := [] ++ sect.items } : IniSection) = sect := by
    rw [List.nil_append]
    conv => lhs; rw [← wellFormed.sameName]
  rw [sectionText_eq, if_pos named]
  rwa [same] at whole

/-- The section without a header is there before the first line. -/
theorem reads_default {sect : IniSection} (wellFormed : WellFormedSection [] sect) :
    Reads { sections := (∅ : IniSections).insert [] {}, current := some [], comment := [] }
      (sectionText ([], sect))
      { sections := (∅ : IniSections).insert [] sect, current := some [], comment := [] } := by
  have items := reads_items wellFormed.items ((∅ : IniSections).insert [] {}) []
  rw [modify_insert] at items
  have same : ({ items := [] ++ sect.items } : IniSection) = sect := by
    have default := wellFormed.default rfl
    have sameName := wellFormed.sameName
    cases sect
    subst default sameName
    rfl
  rw [sectionText_eq, wellFormed.default rfl]
  rwa [same] at items

/-- Sections with names of their own are opened one after the other. -/
theorem reads_sections {entries : List (Text × IniSection)} (distinct : entries.Pairwise fun a b => a.1 ≠ b.1)
    {sections : IniSections} {current : Option Text}
    (wellFormed : ∀ entry ∈ entries, WellFormedSection entry.1 entry.2 ∧ entry.1 ≠ [] ∧ entry.1 ∉ sections) :
    ∃ last, Reads { sections, current, comment := [] } (entries.flatMap sectionText)
      { sections := entries.foldl (fun filled entry => filled.insert entry.1 entry.2) sections
        current := last
        comment := [] } := by
  induction entries generalizing sections current with
  | nil => exact ⟨current, .nil _⟩
  | cons entry entries inductionHypothesis =>
    obtain ⟨isSection, named, new⟩ := wellFormed entry List.mem_cons_self
    obtain ⟨others, apart⟩ := List.pairwise_cons.mp distinct
    have stillNew : ∀ member ∈ entries, member.1 ∉ sections.insert entry.1 entry.2 := by
      intro member mem present
      rcases ExtTreeMap.mem_insert.mp present with same | earlier
      · exact others member mem (Std.LawfulEqCmp.eq_of_compare same)
      · exact (wellFormed member (List.mem_cons_of_mem _ mem)).2.2 earlier
    obtain ⟨last, rest⟩ := @inductionHypothesis apart (sections.insert entry.1 entry.2) (some entry.1)
      fun member mem =>
        have facts := wellFormed member (List.mem_cons_of_mem _ mem)
        ⟨facts.1, facts.2.1, stillNew member mem⟩
    exact ⟨last, (reads_section isSection named new current).append rest⟩

theorem not_lt_nil (name : Text) : compare name [] ≠ .lt := by
  cases name with
  | nil => decide
  | cons c name => exact fun less => nomatch less

/-- A well formed configuration is read back from the text `saveas` writes. -/
theorem load_saveas {ini other : IniFile} (wellFormed : WellFormedSections ini.sections)
    (default : [] ∈ ini.sections) (flags : other.flags = defaultFlags) :
    other.load (some ini.saveas.2) = .ok (0, { other with sections := ini.sections }) := by
  obtain ⟨sect, present⟩ := Option.isSome_iff_exists.mp (ExtTreeMap.mem_iff_isSome_getElem?.mp default)
  obtain ⟨rest, shape, others⟩ :=
    OrderedMap.toList_eq_cons_of_least not_lt_nil (OrderedMap.mem_toList_iff.mpr present)
  have distinct := ExtTreeMap.distinct_keys_toList (t := ini.sections)
  rw [shape] at distinct
  have named : ∀ entry ∈ rest, WellFormedSection entry.1 entry.2 ∧ entry.1 ≠ [] ∧
      entry.1 ∉ (∅ : IniSections).insert [] sect := by
    intro entry mem
    have stored : entry ∈ ini.sections.toList := by simp [shape, mem]
    refine ⟨wellFormed _ _ (OrderedMap.mem_toList_iff.mp stored), others entry mem, ?_⟩
    simp [Ne.symm (others entry mem)]
  obtain ⟨apart, distinctRest⟩ := List.pairwise_cons.mp distinct
  obtain ⟨last, reads⟩ := @reads_sections rest
      (distinctRest.imp fun differ same => differ (by simp [same])) _ (some []) named
  have whole := ((reads_default (wellFormed [] sect present)).append reads).loadFrom
  -- The entries of the map, opened in order, make the map.
  have again := OrderedMap.foldl_insert_toList ini.sections
  rw [shape, List.foldl_cons] at again
  rw [IniFile.saveas, shape, List.flatMap_cons, IniFile.load, flags]
  dsimp only
  rw [whole]
  simp only [again]
  rfl

/-- Saving what was loaded and loading it again changes nothing. -/
theorem saveas_load {self other ini : IniFile} {file : Text} (flags : self.flags = defaultFlags)
    (sameFlags : other.flags = defaultFlags) (accepted : self.load (some file) = .ok (0, ini)) :
    ini.saveas.1 = 0 ∧ other.load (some ini.saveas.2) = .ok (0, { other with sections := ini.sections }) := by
  refine ⟨rfl, ?_⟩
  have start : WellFormed
      { sections := (∅ : IniSections).insert [] {}, current := some [], comment := [] } := by
    refine ⟨WellFormedSections.insert (fun name sect present => ?_) ?_, by simp, comment_nil⟩
    · rw [ExtTreeMap.getElem?_empty] at present
      cases present
    · exact
        { sameName := rfl
          named := ⟨⟨by simp, by simp⟩, by simp, by simp⟩
          comment := comment_nil
          default := fun _ => rfl
          items := fun item mem => nomatch mem }
  rw [IniFile.load, flags] at accepted
  dsimp only at accepted
  cases loaded : loadFrom defaultFlags (file.length + 1) file
      { sections := (∅ : IniSections).insert [] {}, current := some [], comment := [] } with
  | error fault =>
    rw [loaded] at accepted
    cases accepted
  | ok result =>
    obtain ⟨code, sections⟩ := result
    rw [loaded] at accepted
    cases accepted
    obtain ⟨wellFormed, default⟩ := loadFrom_keeps start loaded
    exact @load_saveas { self with sections } other wellFormed default sameFlags

/-- Two comments, one of them behind its item, and a header. -/
theorem saveas_load_commented :
    ∃ ini : IniFile, IniFile.load {} (some "#a\n[s]\n k=v ;b\n".toList) = .ok (0, ini) ∧ ini.saveas.1 = 0 ∧
      IniFile.load {} (some ini.saveas.2) = .ok (0, { sections := ini.sections }) := by
  have accepted : ∃ ini, IniFile.load {} (some "#a\n[s]\n k=v ;b\n".toList) = .ok (0, ini) := ⟨_, rfl⟩
  obtain ⟨ini, loaded⟩ := accepted
  exact ⟨ini, loaded, saveas_load rfl rfl loaded⟩

end CallCenter.Verified.IniRoundTrip
