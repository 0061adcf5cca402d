import CallCenter.Foundation.Outcomes
import CallCenter.Foundation.Reading
import CallCenter.Verified.IniLines

/-!
# Every loop over lines comes to an end

`GetLine` sets `nextline` before it copies the content, and the loops go on from there whatever was
copied: the copy is a parameter here.  The loop of `iniSetString` runs between the pointers that
`FindSection` sets, which are in order and inside the buffer.
-/

namespace CallCenter.Verified.IniProgress

open CallCenter.Foundation
open CallCenter.Foundation.Reading
open CallCenter.Model CallCenter.Model.Inirw
open CallCenter.Verified.IniLines

/-! ## `GetLine` with any copy -/

/-- A copy of so many characters of the buffer, from an offset on, to `content`. -/
abbrev Copy := Text → Nat → Int → Except Fault Text

/-- The copy of `GetLine`: a negative length makes it fail. -/
def memcpy : Copy := fun buf cont1 i =>
  if i < 0 then .error .negativeLength else .ok ((buf.drop cont1).take i.toNat)

/-- Where `GetLine` sets `nextline`. -/
def nextlineOf (buf : Text) : Nat := (LineScan.loop {} 0 buf).2

/-- The end of `GetLine` with another copy in the place of its own. -/
def finishCopying (copy : Copy) (s : LineScan) (nextline : Nat) (buf : Text) : Except Fault LineRead :=
  let rem2 : Int := nextline - s.cntCR - s.cntLF
  let rem1 := rem1Of s rem2
  match s.cont1 with
  | none => .ok { type := .lineEmpty, content := [], rem1, rem2, nextline }
  | some cont1 =>
    let i := rem1 - s.cntblank - cont1
    if i ≥ sizeLine then .ok { type := .lineError, content := [], rem1, rem2, nextline }
    else do
      let content ← copy buf cont1 i
      return { type := lineType content, content, rem1, rem2, nextline }

def getLineCopying (copy : Copy) (buf : Text) : Except Fault LineRead :=
  let (s, nextline) := LineScan.loop {} 0 buf
  finishCopying copy s nextline buf

theorem finish_eq_finishCopying (s : LineScan) (nextline : Nat) (buf : Text) :
    s.finish nextline buf = finishCopying memcpy s nextline buf := by
  obtain ⟨_, _, _, _, _, cont1, _⟩ := s
  cases cont1 with
  | none => rfl
  | some cont1 =>
    rw [finish_eq, finishAt, finishCopying]
    dsimp only [memcpy]
    split
    · rfl
    · split <;> rfl

theorem getLine_eq (buf : Text) : getLine buf = getLineCopying memcpy buf := finish_eq_finishCopying _ _ _

theorem finishCopying_nextline {copy : Copy} {s : LineScan} {nextline : Nat} {buf : Text} {line : LineRead}
    (read : finishCopying copy s nextline buf = .ok line) : line.nextline = nextline := by
  obtain ⟨_, _, _, _, _, cont1, _⟩ := s
  rw [finishCopying] at read
  cases cont1 with
  | none =>
    cases read
    rfl
  | some cont1 =>
    dsimp only at read
    split at read
    · cases read
      rfl
    · obtain ⟨content, _, read⟩ := Outcomes.bind_ok read
      cases read
      rfl

theorem getLineCopying_nextline {copy : Copy} {buf : Text} {line : LineRead}
    (read : getLineCopying copy buf = .ok line) : line.nextline = nextlineOf buf :=
  finishCopying_nextline read

/-! ## The loops -/

/-- A loop over lines, with any copy. -/
def lineLoop {State : Type} (copy : Copy) (body : State → Nat → LineRead → Except Fault (ForInStep State)) :
    Loop Char State Fault where
  take := nextlineOf
  body := fun state p rest => do body state p (← getLineCopying copy rest)

theorem lineLoop_body {State : Type} (copy : Copy)
    (body : State → Nat → LineRead → Except Fault (ForInStep State)) (state : State) (p : Nat) (rest : Text) :
    (lineLoop copy body).body state p rest = getLineCopying copy rest >>= body state p := rfl

theorem lineLoop_advances {State : Type} (copy : Copy)
    (body : State → Nat → LineRead → Except Fault (ForInStep State)) : (lineLoop copy body).Advances := by
  intro rest unread
  have bounds := @loop_bounds {} 0 (Nat.le_refl 0) rest (.inr unread)
  rw [Nat.zero_add] at bounds
  exact bounds

/-- The loop over lines is carried out with fuel enough. -/
theorem results_scanLines {State : Type} (body : State → Nat → LineRead → Except Fault (ForInStep State))
    (p : Nat) (rest : Text) (state : State) :
    (lineLoop memcpy body).Results ⟨p, rest, state⟩ (scanLines body p rest state) := by
  induction left : rest.length using Nat.strongRecOn generalizing p rest state with
  | _ length inductionHypothesis =>
    by_cases unread : rest = []
    · subst unread
      exact ⟨[], _, .done _, .exhausted p state⟩
    rw [scanLines_round unread]
    cases read : getLine rest with
    | error fault =>
      refine ⟨[], _, .done _, .fails unread ?_⟩
      rw [lineLoop_body, ← getLine_eq, read]
      rfl
    | ok line =>
      -- the copy of this line succeeds, so the round is that of the loop over lines
      have body_eq : (lineLoop memcpy body).body state p rest = body state p line := by
        rw [lineLoop_body, ← getLine_eq, read]
        rfl
      have next : line.nextline = nextlineOf rest := getLineCopying_nextline ((getLine_eq rest).symm.trans read)
      cases step : body state p line with
      | error fault =>
        simp only [bind, Except.bind, step]
        exact ⟨[], _, .done _, .fails unread (body_eq.trans step)⟩
      | ok after =>
        cases after with
        | done after =>
          simp only [bind, Except.bind, step]
          exact ⟨[], _, .done _, .leaves unread (body_eq.trans step)⟩
        | yield after =>
          simp only [bind, Except.bind, step]
          obtain ⟨some, inside⟩ := lineLoop_advances memcpy body rest unread
          have shorter : (rest.drop line.nextline).length < length := by
            rw [List.length_drop, next, ← left]
            exact Nat.sub_lt (List.length_pos_iff.mpr unread) some
          obtain ⟨taken, cursor, run, ends⟩ :=
            inductionHypothesis _ shorter (p + line.nextline) (rest.drop line.nextline) after rfl
          rw [next] at run ends ⊢
          exact ⟨_, cursor, .next (.next unread (body_eq.trans step)) run, ends⟩

/-! ## The pointers of `FindSection` -/

/-- Of a section that is found the first line comes before its end, and its end has been read. -/
def InOrder (state : SectionSearch) (p : Nat) : Prop :=
  state.found = true → state.cont1 ≤ state.empty ∧ state.empty ≤ p

theorem InOrder.mono {state : SectionSearch} {p further : Nat} (inOrder : InOrder state p) (le : p ≤ further) :
    InOrder state further :=
  fun found => ⟨(inOrder found).1, Nat.le_trans (inOrder found).2 le⟩

theorem findSectionBody_inOrder {sect : Option Text} {state : SectionSearch} {p : Nat} {line : LineRead}
    {next : ForInStep SectionSearch} (inOrder : InOrder state p)
    (step : findSectionBody sect state p line = .ok next) : InOrder next.value (p + line.nextline) := by
  have kept := inOrder.mono (Nat.le_add_right p line.nextline)
  cases type : line.type with
  | lineSection =>
    simp only [findSectionBody, type] at step
    cases sect with
    | none =>
      cases step
      exact kept
    | some sect =>
      dsimp only at step
      split at step
      · cases step
        exact kept
      · rename_i outside
        cases step
        dsimp only [ForInStep.value]
        split
        · exact fun _ => ⟨Nat.le_refl _, Nat.le_refl _⟩
        · exact fun found => absurd found outside
  | lineValue =>
    simp only [findSectionBody, type] at step
    cases step
    dsimp only [ForInStep.value]
    split
    · exact fun _ => ⟨Nat.le_add_right _ _, Nat.le_refl _⟩
    · exact fun found => ⟨Nat.le_trans (kept found).1 (kept found).2, Nat.le_refl _⟩
  | lineIdle | lineError | lineEmpty =>
    simp only [findSectionBody, type] at step
    cases step
    exact kept

theorem findSection_inOrder {copy : Copy} {sect : Option Text} {state : SectionSearch} {p : Nat} {rest : Text}
    {next : ForInStep SectionSearch} (inOrder : InOrder state p)
    (step : (lineLoop copy (findSectionBody sect)).body state p rest = .ok next) :
    InOrder next.value (p + nextlineOf rest) := by
  obtain ⟨line, read, step⟩ := Outcomes.bind_ok step
  rw [← getLineCopying_nextline read]
  exact findSectionBody_inOrder inOrder step

/-- What `FindSection` finds is in order and inside the buffer. -/
theorem inOrder_of_results {copy : Copy} {gBuffer : Text} {sect : Option Text} {state : SectionSearch}
    (results : (lineLoop copy (findSectionBody sect)).Results ⟨0, gBuffer, {}⟩ (.ok state)) :
    InOrder state gBuffer.length := by
  have advances := lineLoop_advances copy (findSectionBody sect)
  obtain ⟨taken, cursor, run, ends⟩ := results
  have reached : InOrder cursor.state cursor.p := by
    refine run.invariant (fun cursor => InOrder cursor.state cursor.p) ?_ nofun
    intro before part after round inOrder
    cases round with
    | next _ goes => exact findSection_inOrder inOrder goes
  have length : cursor.p + cursor.rest.length = gBuffer.length :=
    (Loop.run_behind advances run).2.1.trans (Nat.zero_add _)
  cases ends with
  | exhausted => exact reached.mono (Nat.le_of_eq length)
  | @leaves p rest _ _ unread done =>
    -- `break` comes after a line has been read, which ends inside the buffer
    have inside : p + nextlineOf rest ≤ p + rest.length := Nat.add_le_add_left (advances rest unread).2 p
    exact (findSection_inOrder reached done).mono (Nat.le_trans inside (Nat.le_of_eq length))

/-! ## The loops of `FindSection`, `iniGetValue` and `iniSetString` -/

/-- Whatever is copied the loop over lines goes on with every line, stays inside its lines and ends;
with the copy of `GetLine` its result is the one computed. -/
structure Scans {State : Type} (body : State → Nat → LineRead → Except Fault (ForInStep State))
    (start : Cursor Char State) : Prop where
  terminates : ∀ copy, (lineLoop copy body).Terminates start
  computed : (lineLoop memcpy body).Results start (scanLines body start.p start.rest start.state)

theorem scans {State : Type} (body : State → Nat → LineRead → Except Fault (ForInStep State))
    (start : Cursor Char State) : Scans body start where
  terminates := fun copy => (lineLoop_advances copy body).terminates start
  computed := results_scanLines body start.p start.rest start.state

/-- The lines of a section in which `iniSetString` looks for the key. -/
def sectionStart (gBuffer : Text) (state : SectionSearch) : Cursor Char (Option (Nat × LineRead)) where
  p := state.cont1
  rest := (gBuffer.drop state.cont1).take (state.empty - state.cont1)
  state := none

/-- `GetLine` sets `nextline` behind the start of its buffer and not behind the end, so the three loops
over lines terminate. -/
theorem scanning_terminates (gBuffer : Text) (sect : Option Text) (key : Text) :
    (∀ buf, buf ≠ [] → 0 < nextlineOf buf ∧ nextlineOf buf ≤ buf.length) ∧
      (∀ copy buf line, getLineCopying copy buf = .ok line → line.nextline = nextlineOf buf) ∧
      Scans (findSectionBody sect) ⟨0, gBuffer, {}⟩ ∧
      Scans (getValueBody sect key) ⟨0, gBuffer, {}⟩ ∧
      ∀ copy state, (lineLoop copy (findSectionBody sect)).Results ⟨0, gBuffer, {}⟩ (.ok state) →
        state.found = true → state.cont1 ≤ state.empty ∧ state.empty ≤ gBuffer.length ∧
          Scans (findKeyBody key) (sectionStart gBuffer state) := by
  refine ⟨?_, ?_, scans _ _, scans _ _, ?_⟩
  · intro buf nonempty
    exact lineLoop_advances memcpy (findKeyBody key) buf nonempty
  · intro copy buf line read
    exact getLineCopying_nextline read
  · intro copy state results found
    obtain ⟨ordered, inside⟩ := inOrder_of_results results found
    exact ⟨ordered, inside, scans _ _⟩

/-- The lines of a section with one key. -/
theorem scanning_terminates_section :
    0 < nextlineOf "[s]\nk=1\n".toList ∧ nextlineOf "[s]\nk=1\n".toList ≤ 8 ∧
      Scans (findKeyBody "k".toList) ⟨4, "k=1\n".toList, none⟩ := by
  obtain ⟨bounds, _, _, _, keys⟩ := scanning_terminates "[s]\nk=1\n".toList (some "s".toList) "k".toList
  have finds := results_scanLines (findSectionBody (some "s".toList)) 0 "[s]\nk=1\n".toList {}
  have found : scanLines (findSectionBody (some "s".toList)) 0 "[s]\nk=1\n".toList {} =
      .ok { found := true, sect1 := 0, sect2 := 3, cont1 := 4, empty := 8, nextline := 8 } := rfl
  rw [found] at finds
  obtain ⟨some, inside⟩ := bounds "[s]\nk=1\n".toList (by simp)
  exact ⟨some, inside, (keys _ _ finds rfl).2.2⟩

end CallCenter.Verified.IniProgress
