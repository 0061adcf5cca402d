import CallCenter.Verified.IniSetGet

/-!
# The content of a line

`GetLine` is there to isolate the content of a line: what stands before its remark, without the
blanks around it.  The end of the content is a difference of pointers and counters, and it is the
right one only where nothing was counted twice.
-/

namespace CallCenter.Verified.IniContents

open CallCenter.Foundation (Text)
open CallCenter.Foundation.Text
open CallCenter.Model CallCenter.Model.Inirw
open CallCenter.Verified.IniLines CallCenter.Verified.IniLookup CallCenter.Verified.IniSetGet

/-! ## What a line says -/

/-- The text before the first sign outside quotes. -/
def beforeSign : Bool → Bool → Text → Text
  | _, _, [] => []
  | quot1, quot2, c :: text =>
    if isSign c && !quot1 && !quot2 then []
    else c :: beforeSign (quot1 ^^ (c == '\x27' && !quot2)) (quot2 ^^ (c == '\x22' && !quot1)) text

def beforeRemark (body : Text) : Text := beforeSign false false body

/-- The content of a line. -/
def contentOf (body : Text) : Text := trim (beforeRemark body)

/-- The line at the start of a buffer is cut down to `content`. -/
def Isolates (buf content : Text) : Prop :=
  ∃ line, getLine buf = .ok line ∧ line.content = content ∧ line.content.length < sizeLine

/-! ## One character -/

theorem visit_quotes (s : LineScan) (p : Nat) (c : Char) :
    (s.visit p c).isQuot1 = (s.isQuot1 ^^ (c == '\x27' && !s.isQuot2)) ∧
      (s.visit p c).isQuot2 = (s.isQuot2 ^^ (c == '\x22' && !s.isQuot1)) := by
  grind [LineScan.visit]

/-! ## The scan of a body -/

/-- Up to the first sign outside quotes there is no remark, and the sign starts one. -/
theorem visitAll_beforeSign {s : LineScan} (bare : s.rem1 = none) (p : Nat) (text : Text) :
    (visitAll s p (beforeSign s.isQuot1 s.isQuot2 text)).rem1 = none ∧
      (beforeSign s.isQuot1 s.isQuot2 text = text ∨
        ∃ sign remark, text = beforeSign s.isQuot1 s.isQuot2 text ++ sign :: remark ∧ isSign sign = true ∧
          (visitAll s p (beforeSign s.isQuot1 s.isQuot2 text)).isQuot1 = false ∧
          (visitAll s p (beforeSign s.isQuot1 s.isQuot2 text)).isQuot2 = false) := by
  induction text generalizing s p with
  | nil => exact ⟨bare, .inl rfl⟩
  | cons c text inductionHypothesis =>
    rw [beforeSign]
    cases starts : isSign c && !s.isQuot1 && !s.isQuot2 with
    | true =>
      simp only [Bool.and_eq_true, Bool.not_eq_true'] at starts
      exact ⟨bare, .inr ⟨c, text, rfl, starts.1.1, starts.1.2, starts.2⟩⟩
    | false =>
      have bare' : (s.visit p c).rem1 = none := by
        rw [visit_rem1, starts]
        simp [bare]
      -- The quotes of the scan and of the specification are toggled alike.
      obtain ⟨none, rest⟩ := inductionHypothesis bare' (p + 1)
      rw [(visit_quotes s p c).1, (visit_quotes s p c).2] at none rest
      simp only [Bool.false_eq_true, if_false, visitAll, List.cons_append, List.cons.injEq, true_and]
      exact ⟨none, rest⟩

/-- The content starts at a character that is no blank, quote or sign. -/
theorem visitAll_cont1 {s : LineScan} {text : Text} {cont1 : Nat} (fresh : s.cont1 = none)
    (content : (visitAll s 0 text).cont1 = some cont1) :
    ∃ c, text[cont1]? = some c ∧ isspace c = false ∧ keepsBlanks c = false := by
  -- Over the prefixes of the text: the last character starts the content, or it has started before.
  induction text using List.reverseRecOn with
  | nil =>
    rw [visitAll, fresh] at content
    cases content
  | append_singleton text c inductionHypothesis =>
    rw [visitAll_append, visitAll, visitAll, visit_cont1] at content
    split at content
    · obtain ⟨d, place, visible, plain⟩ := inductionHypothesis content
      refine ⟨d, ?_, visible, plain⟩
      have inside := (List.getElem?_eq_some_iff.mp place).1
      rwa [List.getElem?_append_left inside]
    · rename_i starts
      simp only [Bool.or_eq_true, not_or, Bool.not_eq_true, Option.some.injEq, Nat.zero_add] at starts content
      subst content
      exact ⟨c, List.getElem?_concat_length, starts.1.1.2, starts.1.1.1⟩

theorem visitAll_keeps_cont1 {s : LineScan} {cont1 : Nat} (content : s.cont1 = some cont1) (p : Nat)
    (text : Text) : (visitAll s p text).cont1 = some cont1 := by
  induction text generalizing s p with
  | nil => exact content
  | cons c text inductionHypothesis =>
    refine inductionHypothesis ?_ (p + 1)
    rw [visit_cont1, content]
    simp

/-! ## Blanks that are counted -/

/-- A quote or a sign. -/
def isMark (c : Char) : Bool := c == '\x27' || c == '\x22' || isSign c

/-- The blanks since the last character of another kind: quotes and signs do not end their run. -/
def countedBlanks (text : Text) : Nat := (text.rtakeWhile fun c => isspace c || isMark c).countP isspace

def lastBlanks (text : Text) : Nat := (text.rtakeWhile isspace).length

theorem visible_of_isMark {c : Char} (mark : isMark c = true) : isspace c = false := by
  simp only [isMark, isSign, Bool.or_eq_true, beq_iff_eq] at mark
  rcases mark with (rfl | rfl) | (rfl | rfl) <;> rfl

theorem countedBlanks_concat (text : Text) (c : Char) :
    countedBlanks (text ++ [c]) =
      if isMark c then countedBlanks text else if isspace c then countedBlanks text + 1 else 0 := by
  cases mark : isMark c with
  | true =>
    rw [countedBlanks, countedBlanks, List.rtakeWhile_concat_pos _ _ _ (by simp [mark]), List.countP_append]
    simp [visible_of_isMark mark]
  | false =>
    cases space : isspace c with
    | true =>
      rw [countedBlanks, countedBlanks, List.rtakeWhile_concat_pos _ _ _ (by simp [space]), List.countP_append]
      simp [space]
    | false => simp [countedBlanks, mark, space]

theorem countedBlanks_le (text : Text) : countedBlanks text ≤ text.length :=
  List.countP_le_length.trans (List.rtakeWhile_suffix _ _).length_le

theorem keepsBlanks_ordinary {c : Char} (ordinary : isEnd c = false) : keepsBlanks c = isMark c := by
  simp only [isEnd, Bool.or_eq_false_iff] at ordinary
  simp [keepsBlanks, isMark, ordinary.1.1, ordinary.1.2]

/-- `cntblank` is the number of these blanks. -/
theorem visitAll_countedBlanks {text : Text} (ordinary : ∀ c ∈ text, isEnd c = false) :
    (visitAll {} 0 text).cntblank = countedBlanks text := by
  induction text using List.reverseRecOn with
  | nil => rfl
  | append_singleton text c inductionHypothesis =>
    have before := inductionHypothesis fun d mem => ordinary d (List.mem_append_left _ mem)
    rw [visitAll_append, visitAll, visitAll, visit_cntblank, before, countedBlanks_concat,
      keepsBlanks_ordinary (ordinary c (by simp))]

/-! ## Where the content ends -/

/-- The first line end comes twice, and more follows. -/
def doubledEnd (gap : Text) (more : Bool) : Bool :=
  match gap with
  | x :: y :: after => x == y && (more || !after.isEmpty)
  | _ => false

/-- How far behind its body the end of a line is taken to be. -/
def endShift (gap : Text) (more : Bool) : Int :=
  if '\x00' ∈ gap.take 3 then 1 else if doubledEnd gap more then -1 else 0

theorem lineEnd_endShift (gap : Text) (more : Bool) : (lineEnd more gap).2 = endShift gap more := by
  fun_cases lineEnd more gap <;> grind [endShift, doubledEnd]

/-- No blank is counted that does not stand at the end of the content, and the end of the line is
where its body ends. -/
def CountsRight (body gap : Text) (more : Bool) : Prop :=
  contentOf body = [] ∨
    (∀ c, (contentOf body).head? = some c → c ≠ '\x27' ∧ c ≠ '\x22') ∧
      if beforeRemark body = body then (countedBlanks body : Int) = lastBlanks body + endShift gap more
      else countedBlanks (beforeRemark body) = lastBlanks (beforeRemark body) ∧ countedBlanks body = 0

theorem finishAt_isolates {s : LineScan} {nextline cont1 : Nat} {rem2 : Int} {buf content : Text}
    (begun : s.cont1 = some cont1) (there : content <+: buf.drop cont1) (nonempty : content ≠ [])
    (inside : rem1Of s rem2 - s.cntblank ≤ buf.length) (fits : content.length < sizeLine) :
    (∃ line, finishAt s nextline rem2 buf = .ok line ∧ line.content = content ∧
        line.content.length < sizeLine) ↔
      rem1Of s rem2 - s.cntblank = cont1 + content.length := by
  have some := List.length_pos_iff.mpr nonempty
  rw [finishAt, begun]
  dsimp only
  constructor
  · rintro ⟨line, read, is, -⟩
    split at read
    · cases read
      exact absurd is.symm nonempty
    split at read
    · cases read
    cases read
    have length := congrArg List.length is
    simp only [List.length_take, List.length_drop] at length
    omega
  · intro atEnd
    have length : (rem1Of s rem2 - s.cntblank - cont1).toNat = content.length := by omega
    rw [if_neg (by omega), if_neg (by omega), length]
    exact ⟨_, rfl, (List.prefix_iff_eq_take.mp there).symm, by simp only [List.length_take]; omega⟩

/-! ## The content of a body -/

theorem trim_split (text : Text) :
    ∃ lead trail, text = lead ++ trim text ++ trail ∧ (∀ c ∈ lead, isspace c = true) ∧
      ∀ c ∈ trail, isspace c = true := by
  refine ⟨text.takeWhile isspace, (text.dropWhile isspace).rtakeWhile isspace, ?_,
    fun c mem => List.mem_takeWhile_imp mem, fun c mem => List.mem_rtakeWhile_imp mem⟩
  -- The blanks in front, and those behind what is left of the text.
  rw [trim, List.append_assoc, List.rdropWhile_append_rtakeWhile, List.takeWhile_append_dropWhile]

theorem lastBlanks_append {front trail : Text} (visible : ∀ c, front.getLast? = some c → isspace c = false)
    (spaces : ∀ c ∈ trail, isspace c = true) : lastBlanks (front ++ trail) = trail.length := by
  rw [lastBlanks, (rtakeWhile_append spaces visible).1]

theorem lastBlanks_le_countedBlanks (text : Text) : lastBlanks text ≤ countedBlanks text := by
  induction text using List.reverseRecOn with
  | nil => exact Nat.le_refl _
  | append_singleton text c inductionHypothesis =>
    rw [countedBlanks_concat]
    cases space : isspace c with
    | true =>
      have noMark : isMark c = false := by
        cases mark : isMark c with
        | false => rfl
        | true => exact absurd (visible_of_isMark mark) (by simp [space])
      rw [lastBlanks] at inductionHypothesis ⊢
      rw [List.rtakeWhile_concat_pos _ _ _ space, noMark, List.length_append, List.length_singleton]
      simpa using inductionHypothesis
    | false =>
      rw [lastBlanks, List.rtakeWhile_concat_neg _ _ _ (by simp [space])]
      exact Nat.zero_le _

theorem beforeSign_starts (quot1 quot2 : Bool) (text : Text) : beforeSign quot1 quot2 text <+: text := by
  induction text generalizing quot1 quot2 with
  | nil => exact List.prefix_rfl
  | cons c text inductionHypothesis =>
    rw [beforeSign]
    split
    · exact List.nil_prefix
    · exact List.cons_prefix_cons.mpr ⟨rfl, inductionHypothesis _ _⟩

/-- Behind blanks a sign is outside quotes. -/
theorem noSign_behind_blanks {body lead rest : Text} {c : Char} (spaces : ∀ d ∈ lead, isspace d = true)
    (shape : beforeRemark body = lead ++ c :: rest) : isSign c = false := by
  rw [beforeRemark] at shape
  induction lead generalizing body with
  | nil =>
    cases body with
    | nil => cases shape
    | cons d body =>
      rw [beforeSign] at shape
      split at shape
      · cases shape
      · rename_i noSign
        cases shape
        simpa using noSign
  | cons e lead inductionHypothesis =>
    cases body with
    | nil => cases shape
    | cons d body =>
      rw [beforeSign] at shape
      split at shape
      · cases shape
      · obtain ⟨rfl, rest⟩ := List.cons.inj shape
        have space := spaces d List.mem_cons_self
        have quot1 : (d == '\x27') = false := beq_false_of_ne (by rintro rfl; cases space)
        have quot2 : (d == '\x22') = false := beq_false_of_ne (by rintro rfl; cases space)
        rw [quot1, quot2] at rest
        exact inductionHypothesis (fun f mem => spaces f (List.mem_cons_of_mem _ mem)) rest

/-- What the scan of a body leaves behind. -/
theorem scan_body {body : Text} (ordinary : ∀ c ∈ body, isEnd c = false) :
    (visitAll {} 0 body).cntblank = countedBlanks body ∧
      (visitAll {} 0 body).cont1 = (visitAll {} 0 (beforeRemark body)).cont1 ∧
      (visitAll {} 0 body).rem1 =
        if beforeRemark body = body then none
        else some ((beforeRemark body).length - countedBlanks (beforeRemark body)) := by
  refine ⟨visitAll_countedBlanks ordinary, ?_⟩
  have ordinaryHead : ∀ c ∈ beforeRemark body, isEnd c = false := fun c mem =>
    ordinary c ((beforeSign_starts false false body).mem mem)
  have counted := visitAll_countedBlanks ordinaryHead
  have bare : (visitAll {} 0 (beforeRemark body)).rem1 = none := (@visitAll_beforeSign {} rfl 0 body).1
  rcases (@visitAll_beforeSign {} rfl 0 body).2 with whole | ⟨sign, remark, shape, isSign', quot1, quot2⟩
  · have whole' : beforeRemark body = body := whole
    rw [if_pos whole']
    rw [whole'] at bare ⊢
    exact ⟨rfl, bare⟩
  · have shape' : body = beforeRemark body ++ sign :: remark := shape
    have cut : beforeRemark body ≠ body := by
      intro whole
      have length := congrArg List.length shape'
      rw [whole] at length
      simp at length
    rw [if_neg cut]
    -- The sign starts the remark, and no character behind it moves a pointer.
    have starts : ((visitAll {} 0 (beforeRemark body)).visit (0 + (beforeRemark body).length) sign).rem1 =
        some ((beforeRemark body).length - countedBlanks (beforeRemark body)) := by
      have open1 : (visitAll {} 0 (beforeRemark body)).isQuot1 = false := quot1
      have open2 : (visitAll {} 0 (beforeRemark body)).isQuot2 = false := quot2
      rw [visit_rem1, bare, isSign', counted, open1, open2, Nat.zero_add]
      rfl
    have still : ((visitAll {} 0 (beforeRemark body)).visit (0 + (beforeRemark body).length) sign).cont1 =
        (visitAll {} 0 (beforeRemark body)).cont1 := by
      rw [visit_cont1]
      simp [keepsBlanks, isSign']
    obtain ⟨rem1, cont1⟩ := visitAll_pointers starts (0 + (beforeRemark body).length + 1) remark
    have scan : visitAll {} 0 body = visitAll ((visitAll {} 0 (beforeRemark body)).visit
        (0 + (beforeRemark body).length) sign) (0 + (beforeRemark body).length + 1) remark := by
      conv_lhs => rw [shape', visitAll_append, visitAll]
    rw [scan]
    exact ⟨cont1.trans still, rem1⟩

/-- A letter behind blanks starts the content. -/
theorem cont1_of_letter {lead rest : Text} {c : Char} (ordinary : ∀ d ∈ lead, isEnd d = false)
    (spaces : ∀ d ∈ lead, isspace d = true) (visible : isspace c = false) (plain : keepsBlanks c = false) :
    (visitAll {} 0 (lead ++ c :: rest)).cont1 = some lead.length := by
  rw [visitAll_append, visitAll_blanks ordinary spaces, visitAll]
  refine visitAll_keeps_cont1 ?_ _ _
  rw [visit_cont1, plain, visible]
  simp

theorem finishAt_none {s : LineScan} (blank : s.cont1 = none) (nextline : Nat) (rem2 : Int) (buf : Text) :
    ∃ line, finishAt s nextline rem2 buf = .ok line ∧ line.content = [] ∧ line.type = .lineEmpty := by
  rw [finishAt, blank]
  exact ⟨_, rfl, rfl, rfl⟩

/-- In a line that is blank up to its remark no content starts. -/
theorem blank_of_empty {body : Text} (ordinary : ∀ c ∈ body, isEnd c = false)
    (empty : contentOf body = []) : (visitAll {} 0 body).cont1 = none := by
  obtain ⟨lead, trail, shape, leadSpaces, trailSpaces⟩ := trim_split (beforeRemark body)
  rw [← contentOf, empty, List.append_nil] at shape
  rw [(scan_body ordinary).2.1]
  cases begun : (visitAll {} 0 (beforeRemark body)).cont1 with
  | none => rfl
  | some cont1 =>
    obtain ⟨c, place, visible, _⟩ := visitAll_cont1 rfl begun
    have mem := List.mem_of_getElem? place
    rw [shape] at mem
    rcases List.mem_append.mp mem with inLead | inTrail
    · exact absurd (leadSpaces c inLead) (by simp [visible])
    · exact absurd (trailSpaces c inTrail) (by simp [visible])

/-- The end of the content is found behind its last character. -/
theorem end_iff {body : Text} (ordinary : ∀ c ∈ body, isEnd c = false) (gap : Text) (more : Bool)
    (nonempty : contentOf body ≠ []) {lead trail : Text}
    (shape : beforeRemark body = lead ++ contentOf body ++ trail) (spaces : ∀ c ∈ trail, isspace c = true) :
    rem1Of (visitAll {} 0 body) (body.length + (lineEnd more gap).2) - (visitAll {} 0 body).cntblank =
        lead.length + (contentOf body).length ↔
      if beforeRemark body = body then (countedBlanks body : Int) = lastBlanks body + endShift gap more
      else countedBlanks (beforeRemark body) = lastBlanks (beforeRemark body) ∧ countedBlanks body = 0 := by
  obtain ⟨counted, _, rem1⟩ := scan_body ordinary
  have last : lastBlanks (beforeRemark body) = trail.length := by
    rw [shape]
    refine lastBlanks_append (fun c last => ?_) spaces
    rw [List.getLast?_append_of_ne_nil _ nonempty] at last
    exact (trimmed_trim (beforeRemark body)).last c last
  have length := congrArg List.length shape
  simp only [List.length_append] at length
  -- Without a remark the end of the line counts, with one the text before it.
  rw [rem1Of, rem1, counted, lineEnd_endShift]
  by_cases whole : beforeRemark body = body
  · rw [if_pos whole, if_pos whole]
    rw [whole] at last length
    dsimp only
    omega
  · rw [if_neg whole, if_neg whole]
    have atLeast := lastBlanks_le_countedBlanks (beforeRemark body)
    have atMost := countedBlanks_le (beforeRemark body)
    dsimp only
    omega

/-- What is copied has the type of a content, and starts where the scan found the start. -/
theorem finishAt_content {s : LineScan} {nextline : Nat} {rem2 : Int} {buf : Text} {line : LineRead}
    (read : finishAt s nextline rem2 buf = .ok line) (copied : line.content ≠ []) :
    line.type = lineType line.content ∧
      ∃ cont1, s.cont1 = some cont1 ∧ line.content.head? = buf[cont1]? := by
  rw [finishAt] at read
  cases begun : s.cont1 with
  | none =>
    rw [begun] at read
    cases read
    exact absurd rfl copied
  | some cont1 =>
    rw [begun] at read
    dsimp only at read
    split at read
    · cases read
      exact absurd rfl copied
    split at read
    · cases read
    cases read
    refine ⟨rfl, cont1, rfl, ?_⟩
    rw [List.head?_take, List.head?_drop]
    split
    · rename_i none
      exact absurd (by rw [none, List.take_zero]) copied
    · rfl

/-- What is copied of a line starts with no blank, quote or sign. -/
theorem reading_first {chunk : Chunk} {more : Bool} {line : LineRead} {c : Char} {core : Text}
    (read : reading chunk more = .ok line) (is : line.content = c :: core) : keepsBlanks c = false := by
  obtain ⟨_, cont1, begun, first⟩ := finishAt_content read (by rw [is]; simp)
  obtain ⟨d, place, _, plain⟩ := visitAll_cont1 rfl begun
  rw [is, List.head?_cons, List.getElem?_append_left (List.getElem?_eq_some_iff.mp place).1, place] at first
  cases first
  exact plain

/-- A content that does not start with a quote starts where the scan found its start. -/
theorem content_place {body : Text} (ordinary : ∀ c ∈ body, isEnd c = false) {lead core trail : Text} {c : Char}
    (content : contentOf body = c :: core) (shape : beforeRemark body = lead ++ contentOf body ++ trail)
    (spaces : ∀ d ∈ lead, isspace d = true) (unquoted : ¬ (c = '\x27' ∨ c = '\x22')) (gap : Text) :
    (visitAll {} 0 body).cont1 = some lead.length ∧ contentOf body <+: (body ++ gap).drop lead.length := by
  have ordinaryHead : ∀ d ∈ beforeRemark body, isEnd d = false := fun d mem =>
    ordinary d ((beforeSign_starts false false body).mem mem)
  rw [content] at shape ⊢
  have visible : isspace c = false := (trimmed_trim (beforeRemark body)).head c (by
    rw [← contentOf, content]
    rfl)
  have noSign : isSign c = false := @noSign_behind_blanks body lead (core ++ trail) c spaces (by
    rw [shape]
    simp)
  have plain : keepsBlanks c = false := by
    rw [keepsBlanks_ordinary (ordinaryHead c (by rw [shape]; simp)), isMark, noSign]
    simpa using unquoted
  have ordinaryLead : ∀ d ∈ lead, isEnd d = false := fun d mem => ordinaryHead d (by rw [shape]; simp [mem])
  constructor
  · rw [(scan_body ordinary).2.1, shape, List.append_assoc]
    exact cont1_of_letter ordinaryLead spaces visible plain
  · obtain ⟨remark, cut⟩ := beforeSign_starts false false body
    have cut' : beforeRemark body ++ remark = body := cut
    rw [← cut', shape, List.append_assoc, List.append_assoc, List.append_assoc, List.drop_left]
    exact List.prefix_append _ _

theorem isolates_chunk (chunk : Chunk) (more : Bool) (fits : (contentOf chunk.body).length < sizeLine) :
    (∃ line, reading chunk more = .ok line ∧ line.content = contentOf chunk.body ∧
        line.content.length < sizeLine) ↔ CountsRight chunk.body chunk.gap more := by
  obtain ⟨lead, trail, shape, leadSpaces, trailSpaces⟩ := trim_split (beforeRemark chunk.body)
  rw [← contentOf] at shape
  cases content : contentOf chunk.body with
  | nil =>
    obtain ⟨line, read, empty, _⟩ := finishAt_none (blank_of_empty chunk.ordinary content)
      (chunk.body.length + (lineEnd more chunk.gap).1) (chunk.body.length + (lineEnd more chunk.gap).2)
      (chunk.body ++ chunk.gap)
    exact ⟨fun _ => .inl content, fun _ => ⟨line, read, empty, by rw [empty]; decide⟩⟩
  | cons c core =>
    by_cases quoted : c = '\x27' ∨ c = '\x22'
    · -- A quote starts no content.
      refine iff_of_false ?_ ?_
      · rintro ⟨line, read, is, -⟩
        -- What is copied does not start with one.
        have plain := reading_first read is
        rcases quoted with rfl | rfl <;> cases plain
      · rintro (empty | ⟨noQuote, _⟩)
        · rw [content] at empty
          cases empty
        · have apart := noQuote c (by rw [content]; rfl)
          exact quoted.elim apart.1 apart.2
    · obtain ⟨begun, there⟩ := content_place chunk.ordinary content shape leadSpaces quoted chunk.gap
      have inside : rem1Of (visitAll {} 0 chunk.body) (chunk.body.length + (lineEnd more chunk.gap).2) -
          (visitAll {} 0 chunk.body).cntblank ≤ (chunk.body ++ chunk.gap).length := by
        have atMost := rem1Of_le chunk.body chunk.gap more
        omega
      have some : contentOf chunk.body ≠ [] := by simp [content]
      rw [reading, ← content, finishAt_isolates begun there some inside fits,
        end_iff chunk.ordinary chunk.gap more some shape trailSpaces, CountsRight, content]
      simp only [List.head?_cons, Option.some.injEq, forall_eq', reduceCtorEq, false_or]
      exact (and_iff_right (not_or.mp quoted)).symm

/-! ## The lines of a buffer -/

/-- A line of a buffer with the line ends behind it, those of empty lines among them, and the rest of
the buffer. -/
structure IsLine (buffer body gap rest : Text) : Prop where
  place : ∃ before, buffer = before ++ (body ++ gap ++ rest) ∧ EndsLine before
  ordinary : ∀ c ∈ body, isEnd c = false
  ends : ∀ c ∈ gap, isEnd c = true
  starts : StartsLine rest
  apart : gap = [] → rest = []

/-- What a line is to a lookup. -/
def entryOf (content : Text) : Entry := if content = [] then (.lineEmpty, []) else (lineType content, content)

def hasText (body : Text) : Bool := !body.isEmpty

/-- What the lines of a buffer say; empty lines say nothing. -/
def entriesOf (buffer : Text) : List (Except Fault Entry) :=
  ((buffer.splitOnP isEnd).filter hasText).map fun body => .ok (entryOf (contentOf body))

theorem content_of_lineEmpty {buf : Text} {line : LineRead} (read : getLine buf = .ok line)
    (isEmpty : line.type = .lineEmpty) : line.content = [] := by
  by_contra content
  replace read : (LineScan.loop {} 0 buf).1.finish (LineScan.loop {} 0 buf).2 buf = .ok line := read
  rw [finish_eq] at read
  rw [(finishAt_content read content).1, lineType] at isEmpty
  split at isEmpty
  · cases isEmpty
  · split at isEmpty <;> cases isEmpty

theorem isolates_line {buffer body gap rest : Text} (isLine : IsLine buffer body gap rest)
    (fits : (contentOf body).length < sizeLine) :
    Isolates (body ++ gap ++ rest) (contentOf body) ↔ CountsRight body gap (!rest.isEmpty) := by
  -- The scan of a chunk needs a character.
  by_cases nonempty : body = []
  · -- An empty line has no content.
    subst nonempty
    refine iff_of_true ?_ (.inl rfl)
    rw [List.nil_append]
    by_cases noGap : gap = []
    · rw [noGap, isLine.apart noGap]
      exact ⟨_, rfl, rfl, by decide⟩
    · obtain ⟨line, read, isEmpty, _⟩ := getLine_gap isLine.ends noGap isLine.starts
      have content := content_of_lineEmpty read isEmpty
      exact ⟨line, read, content, by rw [content]; decide⟩
  · let chunk : Chunk := ⟨body, gap, nonempty, isLine.ordinary, isLine.ends⟩
    rw [Isolates, getLine_chunk chunk isLine.starts isLine.apart]
    exact isolates_chunk chunk _ fits

theorem entry_of_right {chunk : Chunk} {more : Bool} (fits : (contentOf chunk.body).length < sizeLine)
    (right : CountsRight chunk.body chunk.gap more) :
    entry chunk more = .ok (entryOf (contentOf chunk.body)) := by
  obtain ⟨line, read, content, _⟩ := (isolates_chunk chunk more fits).mpr right
  rw [entry_of_reading read, entryOf]
  by_cases empty : contentOf chunk.body = []
  · rw [if_pos empty]
    -- A line without content is an empty one, whatever its remark.
    obtain ⟨blank, read', empty', isEmpty⟩ := finishAt_none (blank_of_empty chunk.ordinary empty)
      (chunk.body.length + (lineEnd more chunk.gap).1) (chunk.body.length + (lineEnd more chunk.gap).2)
      (chunk.body ++ chunk.gap)
    rw [reading, read'] at read
    cases read
    rw [isEmpty, empty']
  · rw [if_neg empty, (finishAt_content read (by rwa [content])).1, content]

theorem splitOnP_ends {gap : Text} (ends : ∀ c ∈ gap, isEnd c = true) (rest : Text) :
    ((gap ++ rest).splitOnP isEnd).filter hasText = (rest.splitOnP isEnd).filter hasText := by
  induction gap with
  | nil => rfl
  | cons c gap inductionHypothesis =>
    have first := ends c List.mem_cons_self
    have none : ∀ d ∈ ([] : Text), isEnd d = false := by simp
    rw [List.cons_append, ← inductionHypothesis fun d mem => ends d (List.mem_cons_of_mem _ mem)]
    have split := List.splitOnP_append_cons_of_forall_mem none c first (gap ++ rest)
    rw [List.nil_append] at split
    rw [split]
    rfl

/-- The lines of a buffer are the bodies of its chunks. -/
theorem splitOnP_chunks {chunks : List Chunk} (spaced : Spaced chunks) :
    ((textOf chunks).splitOnP isEnd).filter hasText = chunks.map Chunk.body := by
  induction chunks with
  | nil => rfl
  | cons chunk chunks inductionHypothesis =>
    have shown : hasText chunk.body = true := by simp [hasText, chunk.nonempty]
    rw [textOf_cons, List.append_assoc, List.map_cons, ← inductionHypothesis spaced.2]
    cases gap : chunk.gap with
    | nil =>
      rw [spaced.apart gap, List.nil_append, List.append_nil, List.splitOnP_eq_singleton chunk.ordinary,
        List.filter_cons_of_pos shown]
      rfl
    | cons c more =>
      have ends : ∀ d ∈ c :: more, isEnd d = true := by
        rw [← gap]
        exact chunk.ends
      rw [List.cons_append,
        List.splitOnP_append_cons_of_forall_mem chunk.ordinary c (ends c List.mem_cons_self),
        List.filter_cons_of_pos shown, splitOnP_ends fun d mem => ends d (List.mem_cons_of_mem _ mem)]

theorem entries_of_right {chunks : List Chunk}
    (right : ∀ front chunk back, chunks = front ++ chunk :: back →
      (contentOf chunk.body).length < sizeLine ∧ CountsRight chunk.body chunk.gap (!back.isEmpty)) :
    entries false chunks = chunks.map fun chunk => .ok (entryOf (contentOf chunk.body)) := by
  induction chunks with
  | nil => rfl
  | cons chunk chunks inductionHypothesis =>
    obtain ⟨fits, first⟩ := right [] chunk chunks rfl
    have later := inductionHypothesis fun front other back shape =>
      right (chunk :: front) other back (by rw [shape]; rfl)
    rw [entries, Bool.false_or, entry_of_right fits first, later, List.map_cons]

/-- `GetLine` isolates the content of a line if and only if no blank is counted that does not stand
at its end and the end of the line is found.  Where this holds of every line of a buffer,
`iniGetValue` returns the whole value of a key. -/
theorem getLine_isolates_iff (buffer : Text) :
    (∀ body gap rest, IsLine buffer body gap rest → (contentOf body).length < sizeLine →
      (Isolates (body ++ gap ++ rest) (contentOf body) ↔ CountsRight body gap (!rest.isEmpty))) ∧
    ((∀ body gap rest, IsLine buffer body gap rest →
        (contentOf body).length < sizeLine ∧ CountsRight body gap (!rest.isEmpty)) →
      ∀ sect key value, lookup sect key false (entriesOf buffer) = .ok (some value) →
        ∀ maxlen defvalue opens, value.length < maxlen →
          Inirw.iniGetValue ⟨some buffer⟩ sect key maxlen defvalue opens =
            .ok (1, value, ⟨some buffer⟩)) := by
  refine ⟨fun body gap rest isLine fits => isolates_line isLine fits, ?_⟩
  intro right sect key value found maxlen defvalue opens room
  obtain ⟨lead, chunks, ends, spaced, rfl⟩ := exists_chunks buffer
  -- Every chunk is a line of the buffer.
  have rightChunks : ∀ front chunk back, chunks = front ++ chunk :: back →
      (contentOf chunk.body).length < sizeLine ∧ CountsRight chunk.body chunk.gap (!back.isEmpty) := by
    intro front chunk back shape
    rw [shape] at spaced
    obtain ⟨gaps, follows, _⟩ := spaced_append.mp spaced
    rw [← textOf_isEmpty]
    refine right chunk.body chunk.gap (textOf back)
      ⟨⟨lead ++ textOf front, ?_, endsLine_textOf ends gaps⟩, chunk.ordinary, chunk.ends,
        startsLine_textOf back, ?_⟩
    · rw [shape, textOf_append, textOf_cons]
      simp only [List.append_assoc]
    · intro empty
      by_cases last : back = []
      · rw [last]
        rfl
      · exact absurd empty (follows last)
  have same : entriesOf (lead ++ textOf chunks) = entries false chunks := by
    rw [entriesOf, splitOnP_ends ends, splitOnP_chunks spaced, entries_of_right rightChunks, List.map_map]
    rfl
  rw [same, ← findValue_eq ends spaced] at found
  have whole : value.take (maxlen - 1) = value := List.take_of_length_le (by omega)
  have some : maxlen ≠ 0 := by omega
  simp only [Inirw.iniGetValue, found, bind, Except.bind, Inirw.copied, if_neg some, whole]
  rfl

/-- A buffer without line ends is one line. -/
theorem isLine_whole {buffer body gap rest : Text} (noEnd : ∀ c ∈ buffer, isEnd c = false)
    (isLine : IsLine buffer body gap rest) : body = buffer ∧ gap = [] ∧ rest = [] := by
  obtain ⟨⟨before, whole, endsLine⟩, -, ends, -, apart⟩ := isLine
  have noGap : gap = [] := by
    refine List.eq_nil_iff_forall_not_mem.mpr fun c member => ?_
    have inside : c ∈ buffer := by simp [whole, member]
    exact Bool.false_ne_true ((noEnd c inside).symm.trans (ends c member))
  have noBefore : before = [] := by
    by_contra nonempty
    have inside : before.getLast nonempty ∈ buffer := by
      rw [whole]
      exact List.mem_append_left _ (List.getLast_mem nonempty)
    exact Bool.false_ne_true
      ((noEnd _ inside).symm.trans (endsLine _ (List.getLast?_eq_some_getLast nonempty)))
  rw [noBefore, noGap, apart noGap, List.nil_append, List.append_nil, List.append_nil] at whole
  exact ⟨whole.symm, noGap, apart noGap⟩

/-- A line with a remark right behind its value, before a blank line and alone in a buffer. -/
theorem getLine_isolates_remark :
    Isolates "k=v;r\n\n[s]".toList "k=v".toList ∧
      Inirw.iniGetValue ⟨some "k=v;r".toList⟩ none ['k'] 100 none true = .ok (1, ['v'], ⟨some "k=v;r".toList⟩) := by
  have isLine : IsLine "k=v;r\n\n[s]".toList "k=v;r".toList "\n\n".toList "[s]".toList :=
    { place := ⟨[], rfl, by simp [EndsLine]⟩
      ordinary := by simp [isEnd]
      ends := by simp [isEnd]
      starts := by simp [StartsLine, isEnd]
      apart := by simp }
  have noQuote : ∀ c, (contentOf "k=v;r".toList).head? = some c → c ≠ '\x27' ∧ c ≠ '\x22' := by
    intro c first
    have isFirst : some 'k' = some c := first
    cases isFirst
    simp
  have right : CountsRight "k=v;r".toList "\n\n".toList true := .inr ⟨noQuote, by decide +kernel⟩
  have alone : ∀ body gap rest, IsLine "k=v;r".toList body gap rest →
      (contentOf body).length < sizeLine ∧ CountsRight body gap (!rest.isEmpty) := by
    intro body gap rest isLine
    obtain ⟨rfl, rfl, rfl⟩ := isLine_whole (by simp [isEnd]) isLine
    exact ⟨by decide +kernel, .inr ⟨noQuote, by decide +kernel⟩⟩
  exact ⟨((getLine_isolates_iff _).1 _ _ _ isLine (by decide +kernel)).mpr right,
    (getLine_isolates_iff _).2 alone none ['k'] ['v'] (by decide +kernel) 100 none true (by decide)⟩

/-- The start of `database.conf`. -/
def databaseConf : Text :=
  ("[database]\nservername=127.0.0.1:3306\nusername=root\npassword=123456\n\n" ++
    "[AI]\nai_num=2\n\n[EMS]\n").toList

/-- The line of the password loses its last character to the empty line behind it, and blanks before
a remark make the length of a content negative. -/
theorem password_cut :
    IsLine databaseConf "password=123456".toList "\n\n".toList "[AI]\nai_num=2\n\n[EMS]\n".toList ∧
      contentOf "password=123456".toList = "password=123456".toList ∧
      ¬ Isolates "password=123456\n\n[AI]\nai_num=2\n\n[EMS]\n".toList "password=123456".toList ∧
      Inirw.iniGetValue ⟨some databaseConf⟩ (some "database".toList) "password".toList 100 none true =
        .ok (1, "12345".toList, ⟨some databaseConf⟩) ∧
      getLine "k   ;\n".toList = .error .negativeLength := by
  have read : getLine "password=123456\n\n[AI]\nai_num=2\n\n[EMS]\n".toList =
      .ok (LineRead.mk .lineValue "password=12345".toList 14 14 16) := by
    decide +kernel
  refine ⟨⟨⟨"[database]\nservername=127.0.0.1:3306\nusername=root\n".toList, by decide +kernel, ?_⟩,
    by simp [isEnd], by simp [isEnd], ?_, by simp⟩, by decide +kernel, ?_, by decide +kernel, by decide +kernel⟩
  · intro c last
    have isLast : some '\n' = some c := last
    cases isLast
    rfl
  · intro c first
    have isFirst : some '[' = some c := first
    cases isFirst
    rfl
  · rintro ⟨line, read', content, -⟩
    rw [read] at read'
    cases read'
    exact absurd content (by decide +kernel)

end CallCenter.Verified.IniContents
