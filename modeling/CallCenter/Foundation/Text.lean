import Mathlib.Data.List.DropRight
import Mathlib.Data.List.Infix
import Mathlib.Data.List.TakeWhile

/-!
# Texts and lines of the C library

A text is the list of its characters.  `isspace` in the C locale, trimming, and `fgets`, which
reads a line in chunks of limited length.
-/

namespace CallCenter.Foundation

abbrev Text := List Char

namespace Text

/-- `isspace`, in the C locale. -/
def isspace (c : Char) : Bool :=
  c == ' ' || c == '\t' || c == '\n' || c == '\x0b' || c == '\x0c' || c == '\r'

/-- A text without white space at either end. -/
def trim (text : Text) : Text := (text.dropWhile isspace).rdropWhile isspace

/-- A text without a character at its end. -/
def trimright (c : Char) (text : Text) : Text := text.rdropWhile (· == c)

/-- The C string at the start of a buffer, up to its first zero byte. -/
def cString (buf : Text) : Text := buf.takeWhile (· ≠ '\x00')

/-! ## Trimming -/

/-- No white space stands at either end. -/
structure Trimmed (text : Text) : Prop where
  head : ∀ c, text.head? = some c → isspace c = false
  last : ∀ c, text.getLast? = some c → isspace c = false

theorem trim_of_trimmed {text : Text} (trimmed : Trimmed text) : trim text = text := by
  cases text with
  | nil => rfl
  | cons c rest =>
    have first := trimmed.head c rfl
    rw [trim, List.dropWhile_cons_of_neg (by simp [first]), List.rdropWhile_eq_self_iff]
    intro nonempty
    have last := trimmed.last _ (List.getLast?_eq_some_getLast nonempty)
    simp [last]

/-- Characters cut from the end of a text leave its beginning, unless nothing is left. -/
theorem head?_rdropWhile {p : Char → Bool} {text : Text} {c : Char}
    (first : (text.rdropWhile p).head? = some c) : text.head? = some c := by
  obtain ⟨cut, whole⟩ := text.rdropWhile_prefix p
  rw [← whole, List.head?_append, first]
  rfl

theorem getLast?_rdropWhile {p : Char → Bool} {text : Text} {c : Char}
    (last : (text.rdropWhile p).getLast? = some c) : p c = false := by
  have nonempty : text.rdropWhile p ≠ [] := by
    intro empty
    rw [empty] at last
    cases last
  rw [List.getLast?_eq_some_getLast nonempty, Option.some.injEq] at last
  simpa [last] using text.rdropWhile_last_not p nonempty

theorem trimmed_trim (text : Text) : Trimmed (trim text) := by
  refine ⟨fun c first => ?_, fun c last => getLast?_rdropWhile last⟩
  have start := head?_rdropWhile first
  have notSpace := List.head?_dropWhile_not isspace text
  rw [start] at notSpace
  simpa using notSpace

theorem mem_of_mem_rdropWhile {p : Char → Bool} {text : Text} {c : Char} (mem : c ∈ text.rdropWhile p) :
    c ∈ text :=
  (text.rdropWhile_prefix p).subset mem

theorem mem_of_mem_trim {text : Text} {c : Char} (mem : c ∈ trim text) : c ∈ text :=
  (List.dropWhile_suffix _).subset (mem_of_mem_rdropWhile mem)

/-- A trimmed text in front that is not empty keeps the start, one behind the end. -/
theorem Trimmed.append {front back : Text} (trimmedFront : Trimmed front) (trimmedBack : Trimmed back) :
    Trimmed (front ++ back) := by
  cases front with
  | nil => exact trimmedBack
  | cons c front =>
    refine ⟨fun first is => trimmedFront.head first is, fun last is => ?_⟩
    rw [List.getLast?_append] at is
    cases back with
    | nil => exact trimmedFront.last last (by simpa using is)
    | cons d back =>
      refine trimmedBack.last last ?_
      rwa [List.getLast?_cons, Option.some_or, ← List.getLast?_cons] at is

theorem trimmed_singleton {c : Char} (notSpace : isspace c = false) : Trimmed [c] :=
  ⟨fun first is => by cases is; exact notSpace, fun last is => by cases is; exact notSpace⟩

theorem trimright_of_trimmed {text : Text} {c : Char} (trimmed : Trimmed text) (space : isspace c = true) :
    trimright c text = text := by
  rw [trimright, List.rdropWhile_eq_self_iff]
  intro nonempty same
  have last := trimmed.last _ (List.getLast?_eq_some_getLast nonempty)
  rw [beq_iff_eq.mp same, space] at last
  cases last

@[simp]
theorem trimright_concat_self (text : Text) (c : Char) : trimright c (text ++ [c]) = trimright c text :=
  List.rdropWhile_concat_pos _ _ _ (by simp)

/-- White space at the end of a text makes no difference to `trim`. -/
theorem trim_concat {c : Char} (space : isspace c = true) (text : Text) : trim (text ++ [c]) = trim text := by
  rw [trim, trim, List.dropWhile_append]
  cases kept : text.dropWhile isspace with
  | nil => simp [List.dropWhile, space]
  | cons d rest =>
    rw [if_neg (by simp)]
    exact List.rdropWhile_concat_pos _ _ _ space

theorem trim_trimright {c : Char} (space : isspace c = true) (text : Text) :
    trim (trimright c text) = trim text := by
  induction text using List.reverseRecOn with
  | nil => rfl
  | append_singleton text d inductionHypothesis =>
    by_cases same : d = c
    · rw [same, trimright_concat_self, inductionHypothesis, trim_concat space]
    · rw [trimright, List.rdropWhile_concat_neg _ _ _ (by simpa using same)]

/-- A text without white space at its start keeps its first character. -/
theorem head?_trim {text : Text} {c : Char} (start : ∀ d, text.head? = some d → isspace d = false)
    (first : (trim text).head? = some c) : text.head? = some c := by
  have kept : text.dropWhile isspace = text := by
    cases text with
    | nil => rfl
    | cons d rest => exact List.dropWhile_cons_of_neg (by simp [start d rfl])
  rw [trim, kept] at first
  exact head?_rdropWhile first

theorem head?_takeWhile {p : Char → Bool} {text : Text} {c : Char}
    (first : (text.takeWhile p).head? = some c) : text.head? = some c := by
  obtain ⟨rest, whole⟩ := text.takeWhile_prefix p
  rw [← whole, List.head?_append, first]
  rfl

theorem Trimmed.suffix {text part : Text} (trimmed : Trimmed text) (suffix : part <:+ text)
    (first : ∀ c, part.head? = some c → isspace c = false) : Trimmed part := by
  refine ⟨first, fun c last => trimmed.last c ?_⟩
  obtain ⟨front, rfl⟩ := suffix
  rw [List.getLast?_append, last]
  rfl

theorem drop_length_takeWhile (p : Char → Bool) (text : Text) :
    text.drop (text.takeWhile p).length = text.dropWhile p := by
  have whole := @List.drop_left _ (text.takeWhile p) (text.dropWhile p)
  rwa [List.takeWhile_append_dropWhile] at whole

/-! ## Lines -/

/-- A text as `fgets` delivers it: a newline stands at its end or nowhere. -/
def Line (text : Text) : Prop := ∃ body, '\n' ∉ body ∧ (text = body ∨ text = body ++ ['\n'])

theorem Line.nil : Line [] := ⟨[], by simp, .inl rfl⟩

theorem Line.cons {c : Char} {text : Text} (other : c ≠ '\n') (line : Line text) : Line (c :: text) := by
  obtain ⟨body, clean, rfl | rfl⟩ := line
  · exact ⟨c :: text, by simp [Ne.symm other, clean], .inl rfl⟩
  · exact ⟨c :: body, by simp [Ne.symm other, clean], .inr rfl⟩

/-- A line that does not end in a newline has none. -/
theorem Line.append {front back : Text} (line : Line front) (open_ : front.getLast? ≠ some '\n')
    (next : Line back) : Line (front ++ back) := by
  obtain ⟨body, clean, rfl | rfl⟩ := line
  · obtain ⟨rest, cleanRest, rfl | rfl⟩ := next
    · exact ⟨front ++ back, by simp [clean, cleanRest], .inl rfl⟩
    · exact ⟨front ++ rest, by simp [clean, cleanRest], .inr (by simp)⟩
  · simp at open_

theorem Line.takeWhile {text : Text} (p : Char → Bool) (line : Line text) : Line (text.takeWhile p) := by
  obtain ⟨body, clean, rfl | rfl⟩ := line
  · exact ⟨text.takeWhile p, fun mem => clean ((List.takeWhile_prefix p).subset mem), .inl rfl⟩
  · rw [List.takeWhile_append]
    split
    · refine ⟨body, clean, ?_⟩
      cases kept : p '\n' with
      | false => exact .inl (by simp [List.takeWhile, kept])
      | true => exact .inr (by simp [List.takeWhile, kept])
    · exact ⟨_, fun mem => clean ((List.takeWhile_prefix p).subset mem), .inl rfl⟩

theorem Line.newline_not_mem_trimright {text : Text} (line : Line text) : '\n' ∉ trimright '\n' text := by
  obtain ⟨body, clean, rfl | rfl⟩ := line
  · exact fun mem => clean (mem_of_mem_rdropWhile mem)
  · rw [trimright_concat_self]
    exact fun mem => clean (mem_of_mem_rdropWhile mem)

/-- `fgets` with room for `limit` characters: what it stores, the rest of the file, and `feof`. -/
def fgets : Nat → Text → Text × Text × Bool
  | 0, file => ([], file, false)
  | _ + 1, [] => ([], [], true)
  | limit + 1, c :: file =>
    if c = '\n' then ([c], file, false)
    else
      let (line, rest, feof) := fgets limit file
      (c :: line, rest, feof)

theorem line_fgets (limit : Nat) (file : Text) : Line (fgets limit file).1 := by
  fun_induction fgets limit file with
  | case1 | case2 => exact .nil
  | case3 => exact ⟨[], by simp, .inr rfl⟩
  | case4 limit c file other line rest feof read inductionHypothesis =>
    rw [read] at inductionHypothesis
    exact inductionHypothesis.cons other

/-- A line that fits is read whole, with its newline. -/
theorem fgets_short {limit : Nat} {body : Text} (clean : '\n' ∉ body) (fits : body.length < limit)
    (rest : Text) :
    fgets limit (body ++ '\n' :: rest) = (body ++ ['\n'], rest, false) := by
  induction body generalizing limit with
  | nil =>
    cases limit with
    | zero => omega
    | succ limit => simp [fgets]
  | cons c body inductionHypothesis =>
    cases limit with
    | zero => simp at fits
    | succ limit =>
      simp only [List.mem_cons, not_or] at clean
      simp only [List.length_cons, Nat.add_lt_add_iff_right] at fits
      simp only [fgets, List.cons_append, if_neg (Ne.symm clean.1), inductionHypothesis clean.2 fits]

/-- Of a longer line `fgets` reads as much as there is room for. -/
theorem fgets_long {limit : Nat} {body : Text} (clean : '\n' ∉ body) (long : limit ≤ body.length)
    (rest : Text) :
    fgets limit (body ++ rest) = (body.take limit, body.drop limit ++ rest, false) := by
  induction body generalizing limit with
  | nil =>
    obtain rfl : limit = 0 := by simpa using long
    rfl
  | cons c body inductionHypothesis =>
    cases limit with
    | zero => rfl
    | succ limit =>
      simp only [List.mem_cons, not_or] at clean
      simp only [List.length_cons, Nat.add_le_add_iff_right] at long
      simp only [fgets, List.cons_append, if_neg (Ne.symm clean.1), inductionHypothesis clean.2 long,
        List.take_succ_cons, List.drop_succ_cons]

end Text

end CallCenter.Foundation
