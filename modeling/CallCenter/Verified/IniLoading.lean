import CallCenter.Verified.IniRoundTrip

/-!
# What `load` makes of a file

Each line of a file is a header, an item or nothing to `load`, and what is stored follows from the
headers before an item.  An empty header clears the section pointer, and the next item is pushed
through it.
-/

namespace CallCenter.Verified.IniLoading

open Std (ExtTreeMap)
open CallCenter.Foundation CallCenter.Foundation.Text CallCenter.Model
open CallCenter.Verified.IniRoundTrip

/-! ## Lines -/

/-- What a line is, without the comment behind it and the white space around it. -/
inductive IniLine where
  | other
  | openHeader
  | header (name : Text)
  | item (key value : Text)
  deriving DecidableEq, Repr

def iniLine (flags : List Text) (line : Text) : IniLine :=
  match (splitComment flags (trim line)).1 with
  | [] => .other
  | c :: rest =>
    if c = '[' then
      if ']' ∈ rest then .header (rest.takeWhile (· ≠ ']')) else .openHeader
    else if isComment flags (c :: rest) then .other
    else
      match parse (c :: rest) '=' with
      | some (key, value) => .item key value
      | none => .other

def iniLines (flags : List Text) (file : Text) : List IniLine := (file.splitOn '\n').map (iniLine flags)

/-- The section a line leaves open: an empty header opens none. -/
def openedBy (current : Text) : IniLine → Text
  | .header name => if name = [] then current else name
  | _ => current

/-- The items of some lines, each with the name in the nearest header before it that has one. -/
def entries (current : Text) : List IniLine → List (Text × Text × Text)
  | [] => []
  | .item key value :: lines => (current, key, value) :: entries current lines
  | line :: lines => entries (openedBy current line) lines

def lastHeader (lines : List IniLine) : Option Text :=
  lines.foldl (fun last line => match line with | .header name => some name | _ => last) none

/-- A header without its bracket, or with the name of an earlier section. -/
def Fatal (earlier : List IniLine) : IniLine → Prop
  | .openHeader => True
  | .header name => name ≠ [] ∧ .header name ∈ earlier
  | _ => False

instance (earlier : List IniLine) (line : IniLine) : Decidable (Fatal earlier line) := by
  cases line <;> unfold Fatal <;> infer_instance

/-- One of the lines behind `earlier` is such a header. -/
def BadHeader (earlier : List IniLine) : List IniLine → Prop
  | [] => False
  | line :: later => Fatal earlier line ∨ BadHeader (earlier ++ [line]) later

/-- An item whose nearest header is an empty one. -/
def Orphan (earlier : List IniLine) : IniLine → Prop
  | .item _ _ => lastHeader earlier = some []
  | _ => False

instance (earlier : List IniLine) (line : IniLine) : Decidable (Orphan earlier line) := by
  cases line <;> unfold Orphan <;> infer_instance

/-- There is one before the first bad header. -/
def Orphaned (earlier : List IniLine) : List IniLine → Prop
  | [] => False
  | line :: later => ¬ Fatal earlier line ∧ (Orphan earlier line ∨ Orphaned (earlier ++ [line]) later)

instance decidableOrphaned : ∀ earlier lines : List IniLine, Decidable (Orphaned earlier lines)
  | _, [] => inferInstanceAs (Decidable False)
  | earlier, line :: later =>
    have := decidableOrphaned (earlier ++ [line]) later
    inferInstanceAs
      (Decidable (¬ Fatal earlier line ∧ (Orphan earlier line ∨ Orphaned (earlier ++ [line]) later)))

/-- The sections are the default one and those of the headers, and each has the items below its header. -/
structure Stores (lines : List IniLine) (sections : IniSections) : Prop where
  names : ∀ name, name ∈ sections ↔ name = [] ∨ .header name ∈ lines
  items : ∀ name sect, sections[name]? = some sect →
    sect.items.map (fun item => (item.key, item.value)) =
      ((entries [] lines).filter fun entry => entry.1 = name).map Prod.snd

/-- `load` ends, reports the bad headers and stores the items of a file without one. -/
def HandlesFile (self : IniFile) (file : Text) : Prop :=
  ∃ code after, self.load (some file) = .ok (code, after) ∧
    (code = -1 ↔ BadHeader [] (iniLines self.flags file)) ∧
    (code ≠ -1 → code = 0 ∧ Stores (iniLines self.flags file) after.sections)

/-! ## Reading the lines -/

theorem fgets_end {limit : Nat} {body : Text} (clean : '\n' ∉ body) (fits : body.length < limit) :
    fgets limit body = (body, [], true) := by
  induction body generalizing limit with
  | nil =>
    cases limit with
    | zero => omega
    | succ limit => rfl
  | cons c body inductionHypothesis =>
    cases limit with
    | zero => simp at fits
    | succ limit =>
      simp only [List.mem_cons, not_or] at clean
      simp only [List.length_cons, Nat.add_lt_add_iff_right] at fits
      simp only [fgets, if_neg (Ne.symm clean.1), inductionHypothesis clean.2 fits]

theorem getlineFrom_end {body : Text} (clean : Clean body) {fuel : Nat} (buf : Text)
    (enough : body.length < fuel) :
    getlineFrom fuel buf body = (buf ++ body, []) := by
  induction fuel generalizing body buf with
  | zero => omega
  | succ fuel inductionHypothesis =>
    by_cases fits : body.length < iniBufSize - 1
    · rw [getlineFrom]
      simp only [fgets_end clean.1 fits, cString_of_clean clean.2]
      cases body <;> simp
    · have long : iniBufSize - 1 ≤ body.length := by omega
      have chunk := getlineFrom_chunk clean long [] fuel buf
      rw [List.append_nil, List.append_nil] at chunk
      rw [chunk, inductionHypothesis (clean.subset (List.drop_subset _ _)) _ (length_drop_chunk long enough),
        List.append_assoc, List.take_append_drop]

theorem getline_end {body : Text} (clean : Clean body) : getline body = (body, []) := by
  rw [getline, getlineFrom_end clean [] (by simp)]
  rfl

/-- The loop of `load` over the lines, without their newlines. -/
def loadLines (flags : List Text) : List Text → Loading → Except Fault (Int × IniSections)
  | [], state => .ok (0, state.sections)
  | line :: lines, state => do
    let (returned, state) ← loadLine flags state line
    match returned with
    | some code => pure (code, state.sections)
    | none => loadLines flags lines state

/-- The lines `getline` reads, with their newlines. -/
def readLines : Nat → Text → List Text
  | 0, _ => []
  | fuel + 1, file =>
    if (getline file).1 = [] then [] else (getline file).1 :: readLines fuel (getline file).2

theorem loadFrom_eq_readLines (flags : List Text) (fuel : Nat) (file : Text) (state : Loading) :
    loadFrom flags fuel file state = loadLines flags (readLines fuel file) state := by
  induction fuel generalizing file state with
  | zero => rfl
  | succ fuel inductionHypothesis =>
    simp only [loadFrom, readLines]
    by_cases ended : (getline file).1 = []
    · rw [if_pos ended, if_pos ended]
      rfl
    · rw [if_neg ended, if_neg ended, loadLines]
      cases loadLine flags state (getline file).1 with
      | error fault => rfl
      | ok result =>
        obtain ⟨returned, state⟩ := result
        cases returned with
        | some code => rfl
        | none => exact inductionHypothesis _ state

theorem loadLine_concat (flags : List Text) (state : Loading) (line : Text) :
    loadLine flags state (line ++ ['\n']) = loadLine flags state line := by
  rw [loadLine, loadLine, trimright_concat_self]

theorem loadLine_nil (flags : List Text) (state : Loading) : loadLine flags state [] = .ok (none, state) := by
  have shape : splitComment flags (trim (trimright '\r' (trimright '\n' []))) = ([], []) := by
    have cut : ∀ flag : List Text, flag.foldl (fun line flag => beforeFlag flag line) [] = [] := by
      intro flags
      induction flags with
      | nil => rfl
      | cons flag flags inductionHypothesis => exact inductionHypothesis
    simp [splitComment, trim, trimright, beforeFlags, cut]
  rw [loadLine, shape]
  simp [loadText]

theorem loadFrom_eq_loadLines (flags : List Text) {file : Text} (noZero : '\x00' ∉ file) {fuel : Nat}
    (enough : file.length < fuel) (state : Loading) :
    loadFrom flags fuel file state = loadLines flags (file.splitOn '\n') state := by
  induction fuel generalizing file state with
  | zero => omega
  | succ fuel inductionHypothesis =>
    rw [loadFrom]
    by_cases more : '\n' ∈ file
    · obtain ⟨body, rest, rfl, clean⟩ := List.eq_append_cons_of_mem more
      simp only [List.mem_append, List.mem_cons, not_or] at noZero
      have whole : body ++ ['\n'] ≠ [] := by simp
      simp only [getline_line ⟨clean, noZero.1⟩ rest, if_neg whole, loadLine_concat,
        List.splitOn_append_cons_self_of_not_mem clean, loadLines]
      have others := fun state => inductionHypothesis noZero.2.2 (by simp at enough; omega) state
      cases loadLine flags state body with
      | error fault => rfl
      | ok result =>
        obtain ⟨returned, state⟩ := result
        cases returned with
        | some code => rfl
        | none => exact others state
    · have clean : Clean file := ⟨more, noZero⟩
      simp only [getline_end clean, List.splitOn_eq_singleton more, loadLines]
      by_cases empty : file = []
      · simp [empty, loadLine_nil, bind, Except.bind]
      · rw [if_neg empty]
        -- nothing is left behind the last line
        have ended : ∀ state, loadFrom flags fuel [] state = .ok (0, state.sections) := by
          intro state
          cases fuel <;> rfl
        cases loadLine flags state file with
        | error fault => rfl
        | ok after =>
          obtain ⟨returned, state⟩ := after
          cases returned with
          | some code => rfl
          | none => exact ended state

/-! ## One line -/

/-- What the loop does with a line, up to the comments it gathers. -/
inductive LineStep (state : Loading) : IniLine → Except Fault (Option Int × Loading) → Prop where
  | other (comment : Text) : LineStep state .other (.ok (none, { state with comment }))
  | openHeader (after : Loading) : LineStep state .openHeader (.ok (some (-1), after))
  | emptyHeader (comment : Text) :
      LineStep state (.header []) (.ok (none, { state with current := none, comment }))
  | repeated {name : Text} (named : name ≠ []) (present : name ∈ state.sections) (after : Loading) :
      LineStep state (.header name) (.ok (some (-1), after))
  | header {name : Text} (named : name ≠ []) (fresh : name ∉ state.sections) (sect : IniSection)
      (empty : sect.items = []) :
      LineStep state (.header name)
        (.ok (none, { sections := state.sections.insert name sect, current := some name, comment := [] }))
  | item {name : Text} (item : IniItem) (opened : state.current = some name) :
      LineStep state (.item item.key item.value)
        (.ok (none,
          { sections := state.sections.modify name fun sect => { sect with items := sect.items ++ [item] }
            current := some name
            comment := [] }))
  | orphan (key value : Text) (cleared : state.current = none) :
      LineStep state (.item key value) (.error .nullSection)

theorem lineStep (flags : List Text) (state : Loading) (line : Text) :
    LineStep state (iniLine flags line) (loadLine flags state line) := by
  rw [loadLine, trim_trimright (by decide), trim_trimright (by decide), iniLine]
  generalize splitComment flags (trim line) = split
  obtain ⟨text, behind⟩ := split
  cases text with
  | nil => exact .other _
  | cons c rest =>
    simp only [loadText]
    by_cases bracket : c = '['
    · simp only [bracket, if_true, loadHeader]
      by_cases closed : ']' ∈ rest
      · simp only [closed, if_true, not_true_eq_false, if_false]
        by_cases unnamed : rest.takeWhile (· ≠ ']') = []
        · rw [if_pos unnamed, unnamed]
          exact .emptyHeader _
        · rw [if_neg unnamed]
          by_cases present : rest.takeWhile (· ≠ ']') ∈ state.sections
          · rw [if_pos present]
            exact .repeated unnamed present _
          · rw [if_neg present]
            exact .header unnamed present _ rfl
      · simp only [closed, if_false, not_false_eq_true, if_true]
        exact .openHeader _
    · simp only [bracket, if_false]
      by_cases comment : isComment flags (c :: rest) = true
      · simp only [comment, if_true]
        exact .other _
      · simp only [comment, if_false, Bool.false_eq_true, loadItem]
        cases parsed : parse (c :: rest) '=' with
        | none => exact .other _
        | some pair =>
          obtain ⟨key, value⟩ := pair
          cases current : state.current with
          | none =>
            simp only [pushItem, bind, Except.bind]
            exact .orphan key value current
          | some name =>
            simp only [pushItem, bind, Except.bind, pure, Except.pure]
            exact .item ⟨key, value, state.comment ++ behind⟩ current

/-! ## All lines -/

/-- The section of the nearest header that has a name. -/
def opened (lines : List IniLine) : Text := lines.foldl openedBy []

theorem entries_append (current : Text) (first second : List IniLine) :
    entries current (first ++ second) =
      entries current first ++ entries (first.foldl openedBy current) second := by
  induction first generalizing current with
  | nil => rfl
  | cons line first inductionHypothesis =>
    cases line <;> simp [entries, openedBy, inductionHypothesis]

theorem opened_concat (lines : List IniLine) (line : IniLine) :
    opened (lines ++ [line]) = openedBy (opened lines) line := by
  simp [opened]

theorem lastHeader_concat (lines : List IniLine) (line : IniLine) :
    lastHeader (lines ++ [line]) = match line with | .header name => some name | _ => lastHeader lines := by
  simp [lastHeader]

theorem mem_entries {current : Text} {lines : List IniLine} {entry : Text × Text × Text}
    (listed : entry ∈ entries current lines) : entry.1 = current ∨ .header entry.1 ∈ lines := by
  induction lines generalizing current with
  | nil => cases listed
  | cons line lines inductionHypothesis =>
    cases line with
    | item key value =>
      rcases List.mem_cons.mp listed with rfl | later
      · exact .inl rfl
      · exact (inductionHypothesis later).imp_right (List.mem_cons_of_mem _)
    | header name =>
      simp only [entries, openedBy] at listed
      rcases inductionHypothesis listed with own | later
      · split at own
        · exact .inl own
        · exact .inr (own ▸ List.mem_cons_self)
      · exact .inr (List.mem_cons_of_mem _ later)
    | _ => exact (inductionHypothesis listed).imp_right (List.mem_cons_of_mem _)

/-- What the loop has after some lines without a bad header. -/
structure Loaded (lines : List IniLine) (state : Loading) : Prop where
  stores : Stores lines state.sections
  current : state.current = if lastHeader lines = some [] then none else some (opened lines)

/-- A line that is no item and no header with a new name changes no section. -/
theorem Stores.concat {lines : List IniLine} {sections : IniSections} (stores : Stores lines sections)
    {line : IniLine} (noItem : entries (opened lines) [line] = [])
    (noName : ∀ name, line = .header name → name = []) : Stores (lines ++ [line]) sections where
  names name := by
    rw [stores.names, List.mem_append, List.mem_singleton]
    constructor
    · exact fun present => present.imp_right .inl
    · rintro (unnamed | present | own)
      · exact .inl unnamed
      · exact .inr present
      · exact .inl (noName name own.symm)
  items name sect present := by
    rw [stores.items name sect present, entries_append, ← opened, noItem, List.append_nil]

theorem Stores.header {lines : List IniLine} {sections : IniSections} (stores : Stores lines sections)
    {name : Text}
    (fresh : name ∉ sections) {sect : IniSection} (empty : sect.items = []) :
    Stores (lines ++ [.header name]) (sections.insert name sect) where
  names other := by
    have own : compare name other = .eq ↔ other = name := by
      rw [eq_comm (a := other)]
      simp
    rw [ExtTreeMap.mem_insert, stores.names, List.mem_append, List.mem_singleton, IniLine.header.injEq, own]
    tauto
  items other found present := by
    rw [entries_append]
    simp only [entries, List.append_nil]
    by_cases same : name = other
    · subst same
      obtain rfl : sect = found := by simpa using present
      have none : ∀ entry ∈ entries [] lines, ¬ entry.1 = name := by
        intro entry listed own
        refine fresh ((stores.names name).mpr ?_)
        rcases mem_entries listed with default | header
        · exact .inl (own ▸ default)
        · exact .inr (own ▸ header)
      simp only [empty, List.map_nil]
      rw [List.filter_eq_nil_iff.mpr (by simpa using none), List.map_nil]
    · rw [ExtTreeMap.getElem?_insert, if_neg (by simpa using same)] at present
      exact stores.items other found present

theorem Stores.item {lines : List IniLine} {sections : IniSections} (stores : Stores lines sections)
    (item : IniItem) :
    Stores (lines ++ [.item item.key item.value])
      (sections.modify (opened lines) fun sect => { sect with items := sect.items ++ [item] }) where
  names name := by
    rw [ExtTreeMap.mem_modify, stores.names, List.mem_append]
    simp
  items name found present := by
    rw [entries_append, ← opened, entries, entries, List.filter_append, List.map_append]
    rw [ExtTreeMap.getElem?_modify] at present
    by_cases same : opened lines = name
    · subst same
      rw [if_pos (by simp)] at present
      obtain ⟨sect, listed, rfl⟩ := Option.map_eq_some_iff.mp present
      simp [stores.items _ sect listed]
    · rw [if_neg (by simpa using same)] at present
      simp [stores.items name found present, same]

/-- What a line should do behind some others. -/
def Outcome (earlier : List IniLine) (line : IniLine) : Except Fault (Option Int × Loading) → Prop
  | .error _ => ¬ Fatal earlier line ∧ Orphan earlier line
  | .ok (some code, _) => code = -1 ∧ Fatal earlier line
  | .ok (none, after) => ¬ Fatal earlier line ∧ ¬ Orphan earlier line ∧ Loaded (earlier ++ [line]) after

theorem Loaded.step {earlier : List IniLine} {state : Loading} (loaded : Loaded earlier state) {line : IniLine}
    {result : Except Fault (Option Int × Loading)} (step : LineStep state line result) :
    Outcome earlier line result := by
  have current := loaded.current
  cases step with
  | other comment =>
    refine ⟨id, id, loaded.stores.concat rfl nofun, ?_⟩
    rw [lastHeader_concat, opened_concat]
    exact current
  | openHeader after => exact ⟨rfl, trivial⟩
  | emptyHeader comment =>
    refine ⟨fun fatal => fatal.1 rfl, id, loaded.stores.concat rfl ?_, ?_⟩
    · rintro name ⟨⟩
      rfl
    · rw [lastHeader_concat]
      rfl
  | repeated named present after =>
    exact ⟨rfl, named, ((loaded.stores.names _).mp present).resolve_left named⟩
  | header named fresh sect empty =>
    refine ⟨fun fatal => fresh ((loaded.stores.names _).mpr (.inr fatal.2)), id,
      loaded.stores.header fresh empty, ?_⟩
    rw [lastHeader_concat, opened_concat, openedBy, if_neg named, if_neg (by simpa using named)]
  | item item pointed =>
    rw [pointed] at current
    split at current
    · cases current
    · rename_i attached
      obtain rfl := Option.some.inj current
      refine ⟨id, attached, loaded.stores.item item, ?_⟩
      rw [lastHeader_concat, opened_concat]
      exact (if_neg attached).symm
  | orphan key value cleared =>
    rw [cleared] at current
    split at current
    · rename_i orphaned
      exact ⟨id, orphaned⟩
    · cases current

/-- What `load` should do with the lines behind some others. -/
def Result (earlier lines : List IniLine) : Except Fault (Int × IniSections) → Prop
  | .error _ => Orphaned earlier lines
  | .ok (code, sections) =>
    ¬ Orphaned earlier lines ∧ ((code = -1 ∧ BadHeader earlier lines) ∨
      (code = 0 ∧ ¬ BadHeader earlier lines ∧ Stores (earlier ++ lines) sections))

theorem Loaded.run {flags : List Text} {earlier : List IniLine} {state : Loading}
    (loaded : Loaded earlier state) (lines : List Text) :
    Result earlier (lines.map (iniLine flags)) (loadLines flags lines state) := by
  induction lines generalizing earlier state with
  | nil => exact ⟨id, .inr ⟨rfl, id, by rw [List.map_nil, List.append_nil]; exact loaded.stores⟩⟩
  | cons line lines inductionHypothesis =>
    have outcome := loaded.step (lineStep flags state line)
    rw [loadLines, List.map_cons]
    cases done : loadLine flags state line with
    | error fault =>
      rw [done] at outcome
      exact ⟨outcome.1, .inl outcome.2⟩
    | ok result =>
      obtain ⟨returned, after⟩ := result
      rw [done] at outcome
      cases returned with
      | some code => exact ⟨fun orphaned => orphaned.1 outcome.2, .inl ⟨outcome.1, .inl outcome.2⟩⟩
      | none =>
        obtain ⟨noFatal, attached, goesOn⟩ := outcome
        have others := inductionHypothesis goesOn
        simp only [bind, Except.bind]
        cases rest : loadLines flags lines after with
        | error fault =>
          rw [rest] at others
          exact ⟨noFatal, .inr others⟩
        | ok result =>
          rw [rest] at others
          obtain ⟨allAttached, bad | whole⟩ := others
          · exact ⟨fun orphaned => orphaned.2.elim attached allAttached, .inl ⟨bad.1, .inr bad.2⟩⟩
          · refine ⟨fun orphaned => orphaned.2.elim attached allAttached,
              .inr ⟨whole.1, fun bad => bad.elim noFatal whole.2.1, ?_⟩⟩
            rw [List.append_cons]
            exact whole.2.2

theorem loaded_start (sect : IniSection) (empty : sect.items = []) :
    Loaded [] { sections := (∅ : IniSections).insert [] sect, current := some [], comment := [] } where
  stores := {
    names := fun name => by
      have own : compare [] name = .eq ↔ name = [] := by
        rw [eq_comm (a := name)]
        simp
      rw [ExtTreeMap.mem_insert, own]
      simp
    items := fun name found present => by
      rw [ExtTreeMap.getElem?_insert] at present
      split at present
      · cases present
        simp [empty, entries]
      · simp at present }
  current := rfl

/-- What `load` does with a file without zero bytes. -/
theorem load_result (self : IniFile) {file : Text} (noZero : '\x00' ∉ file) :
    match self.load (some file) with
    | .error _ => Orphaned [] (iniLines self.flags file)
    | .ok (code, after) =>
      ¬ Orphaned [] (iniLines self.flags file) ∧ ((code = -1 ∧ BadHeader [] (iniLines self.flags file)) ∨
        (code = 0 ∧ ¬ BadHeader [] (iniLines self.flags file) ∧
          Stores (iniLines self.flags file) after.sections)) := by
  have result := @Loaded.run self.flags _ _ (loaded_start {} rfl) (file.splitOn '\n')
  rw [← loadFrom_eq_loadLines self.flags noZero (Nat.lt_succ_self _)] at result
  simp only [IniFile.load]
  cases done : loadFrom self.flags (file.length + 1) file _ with
  | error fault =>
    rw [done] at result
    exact result
  | ok outcome =>
    rw [done] at result
    exact result

/-- `load` does its work exactly when no item stands below an empty header, up to the first bad one. -/
theorem handlesFile_iff (self : IniFile) {file : Text} (noZero : '\x00' ∉ file) :
    HandlesFile self file ↔ ¬ Orphaned [] (iniLines self.flags file) := by
  have result := load_result self noZero
  rw [HandlesFile]
  cases done : self.load (some file) with
  | error fault =>
    rw [done] at result
    simp [result]
  | ok outcome =>
    obtain ⟨code, after⟩ := outcome
    rw [done] at result
    refine ⟨fun _ => result.1, fun _ => ⟨code, after, rfl, ?_⟩⟩
    obtain ⟨rfl, bad⟩ | ⟨rfl, noBad, stores⟩ := result.2
    · exact ⟨iff_of_true rfl bad, fun other => absurd rfl other⟩
    · exact ⟨iff_of_false (by decide) noBad, fun _ => ⟨rfl, stores⟩⟩

/-- A file with a default item, two sections and an empty header that nothing stands below. -/
theorem handlesFile_sections :
    HandlesFile {} "user=tx\n[FREESWITCH]\nIP=127.0.0.1 # local\n[]\n\n[TXBETA]\nprefix=88".toList :=
  (handlesFile_iff {} (by decide +kernel)).mpr (by decide +kernel)

/-- An item below an empty header is pushed through the null pointer. -/
theorem item_below_empty_header : ¬ HandlesFile {} "[TXBETA]\n[]\nprefix=88\n".toList := by
  rintro ⟨code, after, loaded, _⟩
  have noZero : '\x00' ∉ "[TXBETA]\n[]\nprefix=88\n".toList := by decide +kernel
  have result := load_result {} noZero
  rw [loaded] at result
  exact result.1 (by decide +kernel)

end CallCenter.Verified.IniLoading
