import CallCenter.Model.Inirw

/-!
# The lines of a buffer

A buffer is a sequence of bodies, each a run of characters without line ends and zero bytes, and of
the gaps between them.  `GetLine` reads a body with the first line end of its gap; how the pointer
to that end comes out depends on the first characters of the gap alone.  The rest of a gap are empty
lines, which no loop over lines looks at.
-/

namespace CallCenter.Verified.IniLines

open CallCenter.Foundation (Text)
open CallCenter.Foundation.Text
open CallCenter.Model CallCenter.Model.Inirw

/-! ## Bodies and gaps -/

/-- A character that ends a line: a line end or a zero byte. -/
def isEnd (c : Char) : Bool := c == '\r' || c == '\n' || c == '\x00'

/-- A body with the gap behind it. -/
structure Chunk where
  body : Text
  gap : Text
  nonempty : body ≠ []
  ordinary : ∀ c ∈ body, isEnd c = false
  ends : ∀ c ∈ gap, isEnd c = true

/-- A text that follows a gap. -/
def StartsLine (rest : Text) : Prop := ∀ c, rest.head? = some c → isEnd c = false

def textOf (chunks : List Chunk) : Text := chunks.flatMap fun chunk => chunk.body ++ chunk.gap

/-- Between two bodies there is a gap. -/
def Spaced : List Chunk → Prop
  | [] => True
  | chunk :: chunks => (chunks ≠ [] → chunk.gap ≠ []) ∧ Spaced chunks

theorem isEnd_iff {c : Char} : isEnd c = true ↔ c = '\r' ∨ c = '\n' ∨ c = '\x00' := by
  simp [isEnd, or_assoc]

theorem isEnd_cases {c : Char} (ends : isEnd c = true) : c = '\x00' ∨ c ≠ '\x00' ∧ (c = '\r' ∨ c = '\n') := by
  rcases isEnd_iff.mp ends with rfl | rfl | rfl
  · exact .inr ⟨by decide, .inl rfl⟩
  · exact .inr ⟨by decide, .inr rfl⟩
  · exact .inl rfl

theorem ne_zero_of_ordinary {c : Char} (ordinary : isEnd c = false) : c ≠ '\x00' := by
  rintro rfl
  cases ordinary

/-! ## `GetLine` -/

/-- The `switch` on every character of a body. -/
def visitAll (s : LineScan) (p : Nat) : Text → LineScan
  | [] => s
  | c :: body => visitAll (s.visit p c) (p + 1) body

/-- How many characters of a gap belong to the line before it, and how far behind the body `rem2`
points; `more` tells whether another body follows. -/
def lineEnd (more : Bool) : Text → Nat × Int
  | [] => (0, 0)
  | x :: gap =>
    if x = '\x00' then (1, 1)
    else
      match gap with
      | [] => (1, 0)
      | y :: gap =>
        if y = '\x00' then (2, 1)
        else
          match gap with
          | [] => if x = y ∧ more then (1, -1) else (2, 0)
          | z :: _ => if z = '\x00' then (3, 1) else if x = y then (1, -1) else (2, 0)

/-- `rem1` after the loop: the remark, or the end of the line. -/
def rem1Of (s : LineScan) (rem2 : Int) : Int :=
  match s.rem1 with
  | some rem1 => rem1
  | none => rem2

/-- The end of `GetLine` for a given end of the line. -/
def finishAt (s : LineScan) (nextline : Nat) (rem2 : Int) (buf : Text) : Except Fault LineRead :=
  let rem1 := rem1Of s rem2
  let cont2 := rem1 - s.cntblank
  match s.cont1 with
  | none => .ok { type := .lineEmpty, content := [], rem1, rem2, nextline }
  | some cont1 =>
    let i := cont2 - cont1
    if i ≥ sizeLine then .ok { type := .lineError, content := [], rem1, rem2, nextline }
    else if i < 0 then .error .negativeLength
    else
      let content := (buf.drop cont1).take i.toNat
      .ok { type := lineType content, content, rem1, rem2, nextline }

/-- What `GetLine` reads of a chunk. -/
def reading (chunk : Chunk) (more : Bool) : Except Fault LineRead :=
  finishAt (visitAll {} 0 chunk.body) (chunk.body.length + (lineEnd more chunk.gap).1)
    (chunk.body.length + (lineEnd more chunk.gap).2) (chunk.body ++ chunk.gap)

theorem finish_eq (s : LineScan) (p : Nat) (buf : Text) :
    s.finish p buf = finishAt s p (p - s.cntCR - s.cntLF) buf := rfl

/-- The line ends a scan has counted. -/
def lineEnds (s : LineScan) (cr lf : Nat) : LineScan := { s with cntCR := cr, cntLF := lf }

theorem visit_ordinary {c : Char} (ordinary : isEnd c = false) (s : LineScan) (p : Nat) :
    (s.visit p c).cntCR = s.cntCR ∧ (s.visit p c).cntLF = s.cntLF := by
  have notCR : c ≠ '\r' := by rintro rfl; cases ordinary
  have notLF : c ≠ '\n' := by rintro rfl; cases ordinary
  simp only [LineScan.visit, if_neg notCR, if_neg notLF]
  split
  · split <;> exact ⟨rfl, rfl⟩
  · split
    · split <;> exact ⟨rfl, rfl⟩
    · split
      · split
        · exact ⟨rfl, rfl⟩
        · split <;> exact ⟨rfl, rfl⟩
      · split <;> exact ⟨rfl, rfl⟩

theorem visit_counts (s : LineScan) (p : Nat) (c : Char) :
    (s.visit p c).cntCR + (s.visit p c).cntLF ≤ s.cntCR + s.cntLF + 1 := by
  cases lineEnd : isEnd c with
  | false =>
    obtain ⟨sameCR, sameLF⟩ := visit_ordinary lineEnd s p
    omega
  | true =>
    obtain rfl | rfl | rfl := isEnd_iff.mp lineEnd
    · show s.cntCR + 1 + s.cntLF ≤ _
      omega
    · exact Nat.le_refl (s.cntCR + (s.cntLF + 1))
    · exact Nat.le_succ (s.cntCR + s.cntLF)

/-- The loop stops behind its first character and not behind the text, whichever way it ends: it
steps back only where it has counted two line ends. -/
theorem loop_bounds {s : LineScan} {p : Nat} (counted : s.cntCR + s.cntLF ≤ p) {text : Text}
    (some : 0 < p ∨ text ≠ []) : 0 < (s.loop p text).2 ∧ (s.loop p text).2 ≤ p + text.length := by
  induction text generalizing s p with
  | nil =>
    obtain some | nonempty := some
    · exact ⟨some, Nat.le_refl _⟩
    · exact absurd rfl nonempty
  | cons c rest inductionHypothesis =>
    have next : (s.visit p c).cntCR + (s.visit p c).cntLF ≤ p + 1 :=
      Nat.le_trans (visit_counts s p c) (Nat.succ_le_succ counted)
    obtain ⟨further, inside⟩ := inductionHypothesis next (.inl (Nat.succ_pos p))
    rw [LineScan.loop, List.length_cons]
    split
    · dsimp only
      omega
    · split
      · dsimp only
        omega
      · split
        · dsimp only
          omega
        · split
          · dsimp only
            omega
          · omega

theorem loop_ordinary {body : Text} (ordinary : ∀ c ∈ body, isEnd c = false) {s : LineScan} (cr : s.cntCR = 0)
    (lf : s.cntLF = 0) (p : Nat) (tail : Text) :
    s.loop p (body ++ tail) = (visitAll s p body).loop (p + body.length) tail := by
  induction body generalizing s p with
  | nil => rfl
  | cons c body inductionHypothesis =>
    have first := ordinary c List.mem_cons_self
    have noZero : c ≠ '\x00' := by rintro rfl; cases first
    obtain ⟨sameCR, sameLF⟩ := visit_ordinary first s p
    rw [List.cons_append, LineScan.loop, if_neg noZero, if_neg (by omega), if_neg (by omega),
      if_neg (by simp [cr, lf]),
      inductionHypothesis (fun d mem => ordinary d (List.mem_cons_of_mem _ mem)) (sameCR.trans cr)
        (sameLF.trans lf)]
    simp only [visitAll, List.length_cons]
    congr 1
    omega

theorem visitAll_lineEnds {body : Text} (ordinary : ∀ c ∈ body, isEnd c = false) (s : LineScan) (p : Nat) :
    (visitAll s p body).cntCR = s.cntCR ∧ (visitAll s p body).cntLF = s.cntLF := by
  induction body generalizing s p with
  | nil => exact ⟨rfl, rfl⟩
  | cons c body inductionHypothesis =>
    obtain ⟨sameCR, sameLF⟩ := visit_ordinary (ordinary c List.mem_cons_self) s p
    obtain ⟨restCR, restLF⟩ := inductionHypothesis (fun d mem => ordinary d (List.mem_cons_of_mem _ mem))
        (s.visit p c) (p + 1)
    exact ⟨restCR.trans sameCR, restLF.trans sameLF⟩

/-- Two line ends are counted: the next character is not looked at, unless it is a zero byte. -/
theorem loop_two {s : LineScan} (two : s.cntCR + s.cntLF = 2) (p : Nat) {c : Char} (noZero : c ≠ '\x00')
    (rest : Text) :
    s.loop p (c :: rest) = (s, if s.cntCR = s.cntLF then p else p - 1) := by
  rw [LineScan.loop, if_neg noZero]
  by_cases same : s.cntCR = s.cntLF
  · rw [if_neg (by omega), if_pos (by omega), if_pos same]
  · rw [if_pos (by omega), if_neg same]

/-- One line end is counted, and the line goes on with another character. -/
theorem loop_one {s : LineScan} (one : s.cntCR + s.cntLF = 1) (p : Nat) {c : Char} (ordinary : isEnd c = false)
    (rest : Text) : s.loop p (c :: rest) = (s, p) := by
  have noZero : c ≠ '\x00' := by rintro rfl; cases ordinary
  have notCR : c ≠ '\r' := by rintro rfl; cases ordinary
  have notLF : c ≠ '\n' := by rintro rfl; cases ordinary
  rw [LineScan.loop, if_neg noZero, if_neg (by omega), if_neg (by omega), if_pos ⟨by omega, notCR, notLF⟩]

/-- Behind a body the loop stops within the first three characters of the gap. -/
theorem loop_gap {gap rest : Text} (ends : ∀ c ∈ gap, isEnd c = true) (starts : StartsLine rest)
    (apart : gap = [] → rest = []) {s : LineScan} (cr : s.cntCR = 0) (lf : s.cntLF = 0) (p : Nat) :
    ∃ counted countedLF, s.loop p (gap ++ rest) =
        (lineEnds s counted countedLF, p + (lineEnd (!rest.isEmpty) gap).1) ∧
      ((lineEnd (!rest.isEmpty) gap).1 : Int) - counted - countedLF = (lineEnd (!rest.isEmpty) gap).2 := by
  obtain ⟨blank, _, _, q1, q2, cont1, rem1⟩ := s
  cases cr
  cases lf
  cases gap with
  | nil =>
    rw [apart rfl]
    exact ⟨0, 0, rfl, rfl⟩
  | cons x gap =>
    rcases isEnd_cases (ends x (by simp)) with rfl | ⟨_, first⟩
    · exact ⟨0, 0, rfl, rfl⟩
    cases gap with
    | nil =>
      cases rest with
      | nil => rcases first with rfl | rfl <;> exact ⟨_, _, rfl, rfl⟩
      | cons c rest =>
        have other := starts c rfl
        rcases first with rfl | rfl
        · exact ⟨1, 0, loop_one rfl _ other rest, rfl⟩
        · exact ⟨0, 1, loop_one rfl _ other rest, rfl⟩
    | cons y gap =>
      rcases isEnd_cases (ends y (by simp)) with rfl | ⟨_, second⟩
      · rcases first with rfl | rfl <;> exact ⟨_, _, rfl, rfl⟩
      cases gap with
      | nil =>
        cases rest with
        | nil => rcases first with rfl | rfl <;> rcases second with rfl | rfl <;> exact ⟨_, _, rfl, rfl⟩
        | cons c rest =>
          have other := ne_zero_of_ordinary (starts c rfl)
          rcases first with rfl | rfl <;> rcases second with rfl | rfl <;>
            exact ⟨_, _, loop_two rfl _ other rest, rfl⟩
      | cons z gap =>
        have third := isEnd_iff.mp (ends z (by simp))
        rcases first with rfl | rfl <;> rcases second with rfl | rfl <;> rcases third with rfl | rfl | rfl <;>
          exact ⟨_, _, rfl, rfl⟩

theorem lineEnd_bounds {gap : Text} (more : Bool) :
    (lineEnd more gap).1 ≤ gap.length ∧ (gap ≠ [] → 1 ≤ (lineEnd more gap).1) ∧
      (lineEnd more gap).2 ≤ gap.length ∧ -1 ≤ (lineEnd more gap).2 := by
  fun_cases lineEnd more gap <;> simp_all <;> omega

theorem visit_rem1_le {s : LineScan} {p : Nat} (before : ∀ r, s.rem1 = some r → r ≤ p) (c : Char) :
    ∀ r, (s.visit p c).rem1 = some r → r ≤ p + 1 := by
  intro r is
  have kept : s.rem1 = some r → r ≤ p + 1 := fun same => Nat.le_succ_of_le (before r same)
  rw [LineScan.visit] at is
  split at is
  · exact kept is
  split at is
  · exact kept is
  split at is
  · split at is <;> exact kept is
  split at is
  · split at is <;> exact kept is
  split at is
  · split at is
    · exact kept is
    split at is
    · simp only [Option.some.injEq] at is
      omega
    · exact kept is
  split at is <;> exact kept is

theorem visitAll_rem1_le {s : LineScan} {p : Nat} (before : ∀ r, s.rem1 = some r → r ≤ p) (body : Text) :
    ∀ r, (visitAll s p body).rem1 = some r → r ≤ p + body.length := by
  induction body generalizing s p with
  | nil => simpa [visitAll] using before
  | cons c body inductionHypothesis =>
    intro r is
    have rest := inductionHypothesis (visit_rem1_le before c) r is
    simp only [List.length_cons]
    omega

/-- The content ends within the body and its gap. -/
theorem rem1Of_le (body gap : Text) (more : Bool) :
    rem1Of (visitAll {} 0 body) (body.length + (lineEnd more gap).2) ≤ (body ++ gap).length := by
  have bounds := @lineEnd_bounds gap more
  simp only [List.length_append]
  rw [rem1Of]
  cases remark : (visitAll {} 0 body).rem1 with
  | some rem1 =>
    have le := visitAll_rem1_le (by simp) body rem1 remark
    show (rem1 : Int) ≤ _
    omega
  | none =>
    show (body.length : Int) + _ ≤ _
    omega

/-- What lies within a text stays where more text follows. -/
theorem take_drop_append {text : Text} {start count : Nat} (within : start + count ≤ text.length) (rest : Text) :
    ((text ++ rest).drop start).take count = (text.drop start).take count := by
  rw [List.drop_append_of_le_length (by omega), List.take_append_of_le_length]
  rw [List.length_drop]
  omega

/-- The content does not reach behind the end of the line. -/
theorem finishAt_append {s : LineScan} {nextline : Nat} {rem2 : Int} {buf : Text} (inside : rem2 ≤ buf.length)
    (remark : ∀ r, s.rem1 = some r → r ≤ buf.length) (rest : Text) :
    finishAt s nextline rem2 (buf ++ rest) = finishAt s nextline rem2 buf := by
  rw [finishAt, finishAt]
  cases cont : s.cont1 with
  | none => rfl
  | some cont1 =>
    have bounded : rem1Of s rem2 ≤ buf.length := by
      rw [rem1Of]
      cases remarked : s.rem1 with
      | some r =>
        show (r : Int) ≤ buf.length
        exact_mod_cast remark r remarked
      | none => exact inside
    dsimp only
    split
    · rfl
    · split
      · rfl
      · rw [take_drop_append (by omega)]

theorem getLine_chunk (chunk : Chunk) {rest : Text} (starts : StartsLine rest)
    (apart : chunk.gap = [] → rest = []) :
    getLine (chunk.body ++ chunk.gap ++ rest) = reading chunk (!rest.isEmpty) := by
  obtain ⟨sameCR, sameLF⟩ := visitAll_lineEnds chunk.ordinary {} 0
  obtain ⟨counted, countedLF, stops, distance⟩ :=
    @loop_gap _ _ chunk.ends starts apart _ sameCR sameLF chunk.body.length
  have bounds := @lineEnd_bounds chunk.gap (!rest.isEmpty)
  have inside : chunk.body.length + (lineEnd (!rest.isEmpty) chunk.gap).2 ≤
      (chunk.body ++ chunk.gap).length := by
    simp only [List.length_append]
    omega
  have remark : ∀ r, (visitAll {} 0 chunk.body).rem1 = some r → r ≤ (chunk.body ++ chunk.gap).length := by
    intro r is
    have le := visitAll_rem1_le (by simp) chunk.body r is
    simp only [List.length_append]
    omega
  have pointer : ((chunk.body.length +
      (lineEnd (!rest.isEmpty) chunk.gap).1 : Nat) : Int) - counted - countedLF =
      chunk.body.length + (lineEnd (!rest.isEmpty) chunk.gap).2 := by
    omega
  rw [getLine, List.append_assoc, loop_ordinary chunk.ordinary rfl rfl, Nat.zero_add, stops,
    ← List.append_assoc]
  dsimp only
  rw [finish_eq, reading, ← finishAt_append inside remark rest]
  simp only [lineEnds]
  rw [pointer]
  rfl

theorem getLine_gap {gap rest : Text} (ends : ∀ c ∈ gap, isEnd c = true) (nonempty : gap ≠ [])
    (starts : StartsLine rest) :
    ∃ line, getLine (gap ++ rest) = .ok line ∧ line.type = .lineEmpty ∧ 1 ≤ line.nextline ∧
      line.nextline ≤ gap.length := by
  obtain ⟨counted, countedLF, stops, _⟩ :=
    @loop_gap _ _ ends starts (fun empty => absurd empty nonempty) {} rfl rfl 0
  obtain ⟨short, some, _⟩ := @lineEnd_bounds gap (!rest.isEmpty)
  rw [getLine, stops]
  exact ⟨_, rfl, rfl, by simpa using some nonempty, by simpa using short⟩

/-! ## Every buffer is cut into chunks -/

theorem textOf_cons (chunk : Chunk) (chunks : List Chunk) :
    textOf (chunk :: chunks) = chunk.body ++ chunk.gap ++ textOf chunks := rfl

theorem textOf_append (front back : List Chunk) : textOf (front ++ back) = textOf front ++ textOf back :=
  List.flatMap_append

theorem startsLine_textOf (chunks : List Chunk) : StartsLine (textOf chunks) := by
  intro c first
  cases chunks with
  | nil => cases first
  | cons chunk chunks =>
    obtain ⟨d, body, shape⟩ := List.exists_cons_of_ne_nil chunk.nonempty
    rw [textOf_cons, shape] at first
    cases first
    exact chunk.ordinary c (by simp [shape])

theorem textOf_isEmpty (chunks : List Chunk) : (textOf chunks).isEmpty = chunks.isEmpty := by
  cases chunks with
  | nil => rfl
  | cons chunk chunks => simp [textOf_cons, chunk.nonempty]

theorem exists_chunks (text : Text) : ∃ (lead : Text) (chunks : List Chunk),
    (∀ c ∈ lead, isEnd c = true) ∧ Spaced chunks ∧ text = lead ++ textOf chunks := by
  induction text with
  | nil => exact ⟨[], [], by simp, trivial, rfl⟩
  | cons c text inductionHypothesis =>
    obtain ⟨lead, chunks, ends, spaced, rfl⟩ := inductionHypothesis
    cases isEnd' : isEnd c with
    | true => exact ⟨c :: lead, chunks, by simpa [isEnd'] using ends, spaced, rfl⟩
    | false =>
      cases lead with
      | cons d lead =>
        -- The character is a body of its own before the gap.
        exact ⟨[], ⟨[c], d :: lead, by simp, by simp [isEnd'], ends⟩ :: chunks, by simp, ⟨by simp, spaced⟩, rfl⟩
      | nil =>
        cases chunks with
        | nil => exact ⟨[], [⟨[c], [], by simp, by simp [isEnd'], by simp⟩], by simp, ⟨by simp, trivial⟩, rfl⟩
        | cons chunk chunks =>
          have ordinary : ∀ d ∈ c :: chunk.body, isEnd d = false := by simpa [isEnd'] using chunk.ordinary
          exact ⟨[], { chunk with body := c :: chunk.body, nonempty := by simp, ordinary } :: chunks,
            by simp, spaced, rfl⟩

/-! ## The loops over lines -/

theorem finishAt_nextline {s : LineScan} {nextline : Nat} {rem2 : Int} {buf : Text} {line : LineRead}
    (read : finishAt s nextline rem2 buf = .ok line) : line.nextline = nextline := by
  rw [finishAt] at read
  cases cont : s.cont1 with
  | none =>
    rw [cont] at read
    cases read
    rfl
  | some cont1 =>
    rw [cont] at read
    dsimp only at read
    by_cases long : rem1Of s rem2 - s.cntblank - cont1 ≥ sizeLine
    · rw [if_pos long] at read
      cases read
      rfl
    · rw [if_neg long] at read
      by_cases negative : rem1Of s rem2 - s.cntblank - cont1 < 0
      · rw [if_pos negative] at read
        cases read
      · rw [if_neg negative] at read
        cases read
        rfl

/-- `GetLine` goes on by at least one character, and not past the end of the buffer. -/
theorem getLine_advances {buf : Text} (nonempty : buf ≠ []) {line : LineRead} (read : getLine buf = .ok line) :
    1 ≤ line.nextline ∧ line.nextline ≤ buf.length := by
  have next : line.nextline = (LineScan.loop {} 0 buf).2 :=
    @finishAt_nextline (LineScan.loop {} 0 buf).1 (LineScan.loop {} 0 buf).2 _ buf line read
  have bounds := @loop_bounds {} 0 (Nat.le_refl 0) buf (.inr nonempty)
  omega

section Loops

variable {State : Type} {body : State → Nat → LineRead → Except Fault (ForInStep State)}

theorem forLines_enough {fuel other : Nat} {rest : Text} (enough : rest.length ≤ fuel)
    (also : rest.length ≤ other)
    (p : Nat) (state : State) : forLines body fuel p rest state = forLines body other p rest state := by
  induction fuel generalizing other p rest state with
  | zero =>
    obtain rfl : rest = [] := List.length_eq_zero_iff.mp (by omega)
    cases other <;> rfl
  | succ fuel inductionHypothesis =>
    cases other with
    | zero =>
      obtain rfl : rest = [] := List.length_eq_zero_iff.mp (by omega)
      rfl
    | succ other =>
      by_cases empty : rest = []
      · rw [forLines, forLines, if_pos empty, if_pos empty]
      · rw [forLines, forLines, if_neg empty, if_neg empty]
        cases read : getLine rest with
        | error fault => rfl
        | ok line =>
          obtain ⟨some, _⟩ := getLine_advances empty read
          cases step : body state p line with
          | error fault => simp only [bind, Except.bind, step]
          | ok after =>
            cases after with
            | done after => simp only [bind, Except.bind, step]
            | yield after =>
              simp only [bind, Except.bind, step]
              exact @inductionHypothesis other (rest.drop line.nextline) (by rw [List.length_drop]; omega)
                (by rw [List.length_drop]; omega) _ _

theorem scanLines_round {rest : Text} (nonempty : rest ≠ []) (p : Nat) (state : State) :
    scanLines body p rest state = (do
      let line ← getLine rest
      match ← body state p line with
      | .done state => pure state
      | .yield state => scanLines body (p + line.nextline) (rest.drop line.nextline) state) := by
  obtain ⟨fuel, shape⟩ : ∃ fuel, rest.length = fuel + 1 :=
    ⟨rest.length - 1, by have := List.length_pos_iff.mpr nonempty; omega⟩
  rw [scanLines, shape, forLines, if_neg nonempty]
  cases read : getLine rest with
  | error fault => rfl
  | ok line =>
    obtain ⟨some, _⟩ := getLine_advances nonempty read
    have enough : (rest.drop line.nextline).length ≤ fuel := by
      rw [List.length_drop]
      omega
    cases step : body state p line with
    | error fault => simp only [bind, Except.bind, step]
    | ok after =>
      cases after with
      | done after => simp only [bind, Except.bind, step]
      | yield after =>
        simp only [bind, Except.bind, step]
        exact forLines_enough enough (Nat.le_refl _) _ _

/-- A loop that goes on after an empty line. -/
def SkipsEmpty (body : State → Nat → LineRead → Except Fault (ForInStep State)) : Prop :=
  ∀ state p line, line.type = .lineEmpty → body state p line = .ok (.yield state)

theorem scanLines_gap (skips : SkipsEmpty body) {gap rest : Text} (ends : ∀ c ∈ gap, isEnd c = true)
    (starts : StartsLine rest) (p : Nat) (state : State) :
    scanLines body p (gap ++ rest) state = scanLines body (p + gap.length) rest state := by
  induction size : gap.length using Nat.strongRecOn generalizing gap p with
  | ind total inductionHypothesis =>
    by_cases empty : gap = []
    · subst empty
      simp at size
      simp [← size]
    · obtain ⟨line, read, isEmpty, some, short⟩ := getLine_gap ends empty starts
      have nonempty : gap ++ rest ≠ [] := by simp [empty]
      have fewer : ∀ c ∈ gap.drop line.nextline, isEnd c = true :=
        fun c mem => ends c (List.mem_of_mem_drop mem)
      have shorter : (gap.drop line.nextline).length < total := by
        rw [List.length_drop]
        omega
      rw [scanLines_round nonempty, read]
      simp only [bind, Except.bind, skips state p line isEmpty]
      rw [List.drop_append_of_le_length short, inductionHypothesis _ shorter fewer _ rfl, List.length_drop]
      congr 1
      omega

def mapStep {Other : Type} (f : State → Other) : ForInStep State → ForInStep Other
  | .done state => .done (f state)
  | .yield state => .yield (f state)

/-- A loop that does the same on part of the state. -/
theorem scanLines_map {Other : Type} {f : State → Other}
    {other : Other → Nat → LineRead → Except Fault (ForInStep Other)}
    (follows : ∀ state p line, other (f state) p line = (body state p line).map (mapStep f)) (p : Nat)
    (rest : Text)
    (state : State) : (scanLines body p rest state).map f = scanLines other p rest (f state) := by
  rw [scanLines, scanLines]
  generalize rest.length = fuel
  induction fuel generalizing p rest state with
  | zero => rfl
  | succ fuel inductionHypothesis =>
    rw [forLines, forLines]
    by_cases empty : rest = []
    · rw [if_pos empty, if_pos empty]
      rfl
    · rw [if_neg empty, if_neg empty]
      cases getLine rest with
      | error fault => rfl
      | ok line =>
        simp only [bind, Except.bind, follows]
        cases step : body state p line with
        | error fault => rfl
        | ok after =>
          cases after with
          | done after => rfl
          | yield after => exact inductionHypothesis _ _ _

/-- A loop over the lines of chunks, with the way it leaves them. -/
def scanChunks (body : State → Nat → LineRead → Except Fault (ForInStep State)) (more : Bool) :
    Nat → List Chunk → State → Except Fault (ForInStep State)
  | _, [], state => .ok (.yield state)
  | p, chunk :: chunks, state => do
    let line ← reading chunk (more || !chunks.isEmpty)
    match ← body state p line with
    | .done state => pure (.done state)
    | .yield state => scanChunks body more (p + (chunk.body ++ chunk.gap).length) chunks state

/-- A loop that did not fail read its first line, and left there or went on. -/
theorem scanChunks_cons {more : Bool} {p : Nat} {chunk : Chunk} {chunks : List Chunk} {state : State}
    {result : ForInStep State} (scan : scanChunks body more p (chunk :: chunks) state = .ok result) :
    ∃ line, reading chunk (more || !chunks.isEmpty) = .ok line ∧
      ((∃ after, body state p line = .ok (.done after) ∧ result = .done after) ∨
        ∃ after, body state p line = .ok (.yield after) ∧
          scanChunks body more (p + (chunk.body ++ chunk.gap).length) chunks after = .ok result) := by
  rw [scanChunks] at scan
  cases read : reading chunk (more || !chunks.isEmpty) with
  | error fault =>
    rw [read] at scan
    cases scan
  | ok line =>
    refine ⟨line, rfl, ?_⟩
    simp only [read, bind, Except.bind] at scan
    cases step : body state p line with
    | error fault =>
      rw [step] at scan
      cases scan
    | ok after =>
      rw [step] at scan
      cases after with
      | done after =>
        cases scan
        exact .inl ⟨after, rfl, rfl⟩
      | yield after => exact .inr ⟨after, rfl, scan⟩

def leave : ForInStep State → State
  | .done state => state
  | .yield state => state

theorem Spaced.apart {chunk : Chunk} {chunks : List Chunk} (spaced : Spaced (chunk :: chunks)) :
    chunk.gap = [] → textOf chunks = [] := by
  intro empty
  cases chunks with
  | nil => rfl
  | cons => exact absurd empty (spaced.1 (by simp))

/-- The lines of a text are those of its chunks. -/
theorem scanLines_chunks (skips : SkipsEmpty body) {chunks : List Chunk} (spaced : Spaced chunks) (p : Nat)
    (state : State) :
    scanLines body p (textOf chunks) state = (scanChunks body false p chunks state).map leave := by
  induction chunks generalizing p state with
  | nil => rfl
  | cons chunk chunks inductionHypothesis =>
    have starts := startsLine_textOf chunks
    have nonempty : textOf (chunk :: chunks) ≠ [] := by simp [textOf_cons, chunk.nonempty]
    have bounds := @lineEnd_bounds chunk.gap (!chunks.isEmpty)
    rw [scanLines_round nonempty, scanChunks, textOf_cons, getLine_chunk chunk starts spaced.apart,
      textOf_isEmpty,
      Bool.false_or]
    cases read : reading chunk (!chunks.isEmpty) with
    | error fault => rfl
    | ok line =>
      have next := finishAt_nextline read
      cases step : body state p line with
      | error fault => simp only [bind, Except.bind, step, Except.map]
      | ok after =>
        cases after with
        | done after => simp only [bind, Except.bind, step, pure, Except.pure, Except.map, leave]
        | yield after =>
          simp only [bind, Except.bind, step]
          -- What the line leaves of its gap is passed over.
          have rest : (chunk.body ++ chunk.gap ++ textOf chunks).drop line.nextline =
              chunk.gap.drop (lineEnd (!chunks.isEmpty) chunk.gap).1 ++ textOf chunks := by
            rw [next, List.append_assoc, List.drop_append, List.drop_of_length_le (by omega), List.nil_append,
              Nat.add_sub_cancel_left, List.drop_append_of_le_length bounds.1]
          rw [rest, scanLines_gap skips (fun c mem => chunk.ends c (List.mem_of_mem_drop mem)) starts,
            inductionHypothesis spaced.2]
          congr 2
          simp only [List.length_append, List.length_drop]
          omega

end Loops

/-! ## What a loop may know of a line -/

/-- A line without its pointers. -/
abbrev Entry := ELineType × Text

def entry (chunk : Chunk) (more : Bool) : Except Fault Entry :=
  (reading chunk more).map fun line => (line.type, line.content)

def entries (more : Bool) : List Chunk → List (Except Fault Entry)
  | [] => []
  | chunk :: chunks => entry chunk (more || !chunks.isEmpty) :: entries more chunks

theorem entries_append (more : Bool) (front back : List Chunk) :
    entries more (front ++ back) = entries (more || !back.isEmpty) front ++ entries more back := by
  induction front with
  | nil => rfl
  | cons chunk front inductionHypothesis =>
    have follows : (more || !(front ++ back).isEmpty) = ((more || !back.isEmpty) || !front.isEmpty) := by
      cases front <;> cases back <;> cases more <;> rfl
    rw [List.cons_append, entries, entries, follows, inductionHypothesis]
    rfl

theorem entry_of_reading {chunk : Chunk} {more : Bool} {line : LineRead}
    (read : reading chunk more = .ok line) :
    entry chunk more = .ok (line.type, line.content) := by
  rw [entry, read]
  rfl

/-- The content up to a remark or the end of the line. -/
def contentAt (s : LineScan) (rem1 : Int) (buf : Text) : Except Fault Entry :=
  match s.cont1 with
  | none => .ok (.lineEmpty, [])
  | some cont1 =>
    let i := rem1 - s.cntblank - cont1
    if i ≥ sizeLine then .ok (.lineError, [])
    else if i < 0 then .error .negativeLength
    else .ok (lineType ((buf.drop cont1).take i.toNat), (buf.drop cont1).take i.toNat)

theorem entry_eq (chunk : Chunk) (more : Bool) :
    entry chunk more =
      contentAt (visitAll {} 0 chunk.body)
        (rem1Of (visitAll {} 0 chunk.body) (chunk.body.length + (lineEnd more chunk.gap).2))
        (chunk.body ++ chunk.gap) := by
  rw [entry, reading, finishAt, contentAt]
  cases (visitAll {} 0 chunk.body).cont1 with
  | none => rfl
  | some cont1 =>
    dsimp only
    split
    · rfl
    · split <;> rfl

theorem contentAt_append {s : LineScan} {rem1 : Int} {buf : Text} (inside : rem1 ≤ buf.length) (rest : Text) :
    contentAt s rem1 (buf ++ rest) = contentAt s rem1 buf := by
  rw [contentAt, contentAt]
  cases s.cont1 with
  | none => rfl
  | some cont1 =>
    dsimp only
    split
    · rfl
    · split
      · rfl
      · rw [take_drop_append (by omega)]

/-- The entry of a chunk with a remark does not depend on the gap. -/
theorem entry_remark {chunk : Chunk} {rem1 : Nat} (remark : (visitAll {} 0 chunk.body).rem1 = some rem1)
    (more : Bool) :
    entry chunk more = contentAt (visitAll {} 0 chunk.body) rem1 chunk.body := by
  have inside := visitAll_rem1_le (by simp) chunk.body rem1 remark
  rw [entry_eq, rem1Of, remark]
  exact @contentAt_append _ rem1 _ (by omega) chunk.gap

/-- Without a remark, and where the line does not end in a zero byte, only the place of the end
matters. -/
theorem entry_bare {chunk : Chunk} (bare : (visitAll {} 0 chunk.body).rem1 = none) {more : Bool}
    (inside : (lineEnd more chunk.gap).2 ≤ 0) :
    entry chunk more =
      contentAt (visitAll {} 0 chunk.body) (chunk.body.length + (lineEnd more chunk.gap).2) chunk.body := by
  rw [entry_eq, rem1Of, bare]
  exact @contentAt_append _ (chunk.body.length + (lineEnd more chunk.gap).2) _ (by omega) chunk.gap

/-- A chunk is read the same with more in its gap, if the end of the line is found at the same place. -/
theorem entry_prefix {short long : Chunk} {more others : Bool} (body : short.body = long.body)
    (gap : short.gap <+: long.gap)
    (same : (visitAll {} 0 short.body).rem1.isSome = true ∨ (visitAll {} 0 short.body).cont1 = none ∨
      (lineEnd more short.gap).2 = (lineEnd others long.gap).2) :
    entry short more = entry long others := by
  rcases same with remark | blank | sameEnd
  · obtain ⟨rem1, remark⟩ := Option.isSome_iff_exists.mp remark
    rw [entry_remark remark, entry_remark (by rwa [← body]), body]
  · rw [entry_eq, entry_eq, contentAt, contentAt, ← body, blank]
  · obtain ⟨rest, gap⟩ := gap
    have inside := rem1Of_le short.body short.gap more
    rw [entry_eq, entry_eq, ← body, ← sameEnd, ← gap, ← List.append_assoc, contentAt_append inside]

end CallCenter.Verified.IniLines
