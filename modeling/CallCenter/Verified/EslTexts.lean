import CallCenter.Model.EslEvent

/-!
# Texts on the wire

What `esl_url_encode` writes is read back by `esl_url_decode`, as far as the buffer holds it; and the
elements of an array are the pieces of its text.
-/

namespace CallCenter.Verified.EslTexts

open CallCenter.Foundation (Text)
open CallCenter.Foundation.Text (isspace cString)
open CallCenter.Foundation.Numerals (digitValue)
open CallCenter.Model

/-! ## Percent-encoding -/

def encodedChar (c : Char) : Text :=
  if escaped c then ['%', hexDigit (c.toNat / 16), hexDigit (c.toNat % 16)] else [c]

/-- A text with its unsafe characters escaped. -/
def encoded (url : Text) : Text := url.flatMap encodedChar

theorem encoded_cons (c : Char) (url : Text) : encoded (c :: url) = encodedChar c ++ encoded url := rfl

theorem encoded_append (front back : Text) : encoded (front ++ back) = encoded front ++ encoded back :=
  List.flatMap_append

theorem hexValue_hexDigit {n : Nat} (digit : n < 16) : hexValue? (hexDigit n) = some n := by
  have all : ∀ m : Fin 16, hexValue? (hexDigit m) = some m.val := by decide
  exact all ⟨n, digit⟩

/-- A hexadecimal digit is no white space and no sign, and needs no escape. -/
theorem hexDigit_plain {n : Nat} (digit : n < 16) :
    isspace (hexDigit n) = false ∧ hexDigit n ≠ '+' ∧ hexDigit n ≠ '-' ∧ escaped (hexDigit n) = false := by
  have all : ∀ m : Fin 16,
      isspace (hexDigit m) = false ∧ hexDigit m ≠ '+' ∧ hexDigit m ≠ '-' ∧ escaped (hexDigit m) = false := by decide
  exact all ⟨n, digit⟩

theorem scan2x_digits {high low : Nat} (isHigh : high < 16) (isLow : low < 16) (rest : Text) :
    scan2x (hexDigit high :: hexDigit low :: rest) = some (.ofNat 32 (16 * high + low)) := by
  obtain ⟨noSpace, noPlus, noMinus, -⟩ := hexDigit_plain isHigh
  rw [scan2x, List.dropWhile_cons_of_neg (by rw [noSpace]; decide)]
  dsimp only
  rw [if_neg noPlus, if_neg noMinus, hexValue_hexDigit isHigh, hexValue_hexDigit isLow]

/-- A character that is no percent sign is passed over. -/
theorem eslUrlDecodeLoop_plain {c : Char} (noEscape : c ≠ '%') (rest : Text) :
    eslUrlDecodeLoop (c :: rest) = c :: eslUrlDecodeLoop rest := by
  rw [eslUrlDecodeLoop]
  rintro _ _ _ rfl
  exact absurd rfl noEscape

theorem not_percent {c : Char} (safe : escaped c = false) : c ≠ '%' := by
  rintro rfl
  exact absurd safe (by decide)

theorem eslUrlDecodeLoop_encodedChar {c : Char} (ascii : c.toNat < 128) (rest : Text) :
    eslUrlDecodeLoop (encodedChar c ++ rest) = c :: eslUrlDecodeLoop rest := by
  rw [encodedChar]
  split
  · rw [List.cons_append, List.cons_append, List.cons_append, List.nil_append, eslUrlDecodeLoop,
      scan2x_digits (by omega) (by omega)]
    dsimp only
    have value : (BitVec.ofNat 32 (16 * (c.toNat / 16) + c.toNat % 16)).toNat % 256 = c.toNat := by
      rw [BitVec.toNat_ofNat]
      omega
    rw [value, Char.ofNat_toNat]
  · rename_i safe
    rw [List.singleton_append]
    exact eslUrlDecodeLoop_plain (not_percent (by simpa using safe)) rest

theorem eslUrlDecodeLoop_encoded {front : Text} (ascii : ∀ c ∈ front, c.toNat < 128) (rest : Text) :
    eslUrlDecodeLoop (encoded front ++ rest) = front ++ eslUrlDecodeLoop rest := by
  induction front with
  | nil => rfl
  | cons c front inductionHypothesis =>
    rw [List.forall_mem_cons] at ascii
    rw [encoded_cons, List.append_assoc, eslUrlDecodeLoop_encodedChar ascii.1, inductionHypothesis ascii.2]
    rfl

theorem cString_eq {text : Text} (noZero : '\x00' ∉ text) : cString text = text := by
  rw [cString, List.takeWhile_eq_self_iff]
  intro c member
  simp only [ne_eq, decide_not, Bool.not_eq_true', decide_eq_false_iff_not]
  rintro rfl
  exact noZero member

theorem eslUrlDecode_encoded {url : Text} (ascii : ∀ c ∈ url, c.toNat < 128) (noZero : '\x00' ∉ url) :
    eslUrlDecode (encoded url) = url := by
  have decoded := eslUrlDecodeLoop_encoded ascii []
  rw [List.append_nil, eslUrlDecodeLoop, List.append_nil] at decoded
  rw [eslUrlDecode, decoded, cString_eq noZero]

theorem ascii_of_safe {c : Char} (safe : escaped c = false) : c.toNat < 128 := by
  simp only [escaped, Bool.or_eq_false_iff, decide_eq_false_iff_not, Char.lt_def, UInt32.lt_iff_toNat_lt, not_lt]
    at safe
  have printable : c.toNat ≤ '~'.toNat := safe.1.2
  have last : '~'.toNat = 126 := by decide
  omega

/-- How far `esl_url_encode` comes: it encodes a prefix, and stops where the buffer is full or at a
character beyond ASCII. -/
structure EncodesPrefix (len : Nat) (buf url front back : Text) : Prop where
  whole : url = front ++ back
  ascii : ∀ c ∈ front, c.toNat < 128
  fits : (buf ++ encoded front).length ≤ max len buf.length
  returns : (eslUrlEncodeFrom len buf url = .ok (buf ++ encoded front) ∧
      ∀ c, back.head? = some c → len ≤ (buf ++ encoded (front ++ [c])).length) ∨
    (eslUrlEncodeFrom len buf url = .error .overread ∧ ∃ c, back.head? = some c ∧ 128 ≤ c.toNat)

theorem encodesPrefix_nil {len : Nat} {buf url : Text}
    (returns : (eslUrlEncodeFrom len buf url = .ok buf ∧
        ∀ c, url.head? = some c → len ≤ (buf ++ encodedChar c).length) ∨
      (eslUrlEncodeFrom len buf url = .error .overread ∧ ∃ c, url.head? = some c ∧ 128 ≤ c.toNat)) :
    EncodesPrefix len buf url [] url where
  whole := rfl
  ascii := fun _ member => nomatch member
  fits := by
    rw [show encoded [] = [] from rfl, List.append_nil]
    exact Nat.le_max_right _ _
  returns := by
    rw [show encoded [] = [] from rfl, List.append_nil]
    refine returns.imp_left fun stops => ⟨stops.1, fun c first => ?_⟩
    rw [List.nil_append, show encoded [c] = encodedChar c from List.append_nil _]
    exact stops.2 c first

theorem EncodesPrefix.cons {len : Nat} {buf url front back : Text} {c : Char} (ascii : c.toNat < 128)
    (goesOn : eslUrlEncodeFrom len buf (c :: url) = eslUrlEncodeFrom len (buf ++ encodedChar c) url)
    (room : (buf ++ encodedChar c).length ≤ len) (encodes : EncodesPrefix len (buf ++ encodedChar c) url front back) :
    EncodesPrefix len buf (c :: url) (c :: front) back where
  whole := congrArg (c :: ·) encodes.whole
  ascii := List.forall_mem_cons.mpr ⟨ascii, encodes.ascii⟩
  fits := by
    have fits := encodes.fits
    rw [encoded_cons, ← List.append_assoc]
    omega
  returns := by
    rw [goesOn, encoded_cons, ← List.append_assoc]
    refine encodes.returns.imp_left fun stops => ⟨stops.1, fun d first => ?_⟩
    rw [List.cons_append, encoded_cons, ← List.append_assoc]
    exact stops.2 d first

theorem eslUrlEncodeFrom_eq (len : Nat) (buf url : Text) : ∃ front back, EncodesPrefix len buf url front back := by
  induction url generalizing buf with
  | nil => exact ⟨[], [], encodesPrefix_nil (.inl ⟨rfl, nofun⟩)⟩
  | cons c url inductionHypothesis =>
    obtain ⟨front, back, encodes⟩ := inductionHypothesis (buf ++ encodedChar c)
    by_cases full : len ≤ buf.length
    · refine ⟨[], c :: url, encodesPrefix_nil (.inl ⟨by rw [eslUrlEncodeFrom, if_pos full], fun d _ => ?_⟩)⟩
      rw [List.length_append]
      omega
    · cases unsafe_ : escaped c with
      | false =>
        have same : encodedChar c = [c] := by
          rw [encodedChar, unsafe_]
          rfl
        refine ⟨c :: front, back, encodes.cons (ascii_of_safe unsafe_) ?_ ?_⟩
        · rw [eslUrlEncodeFrom, if_neg full, unsafe_, same]
          rfl
        · rw [same, List.length_append, List.length_singleton]
          omega
      | true =>
        have same : encodedChar c = ['%', hexDigit (c.toNat / 16), hexDigit (c.toNat % 16)] := by
          rw [encodedChar, unsafe_]
          rfl
        by_cases narrow : len ≤ buf.length + 3
        · refine ⟨[], c :: url, encodesPrefix_nil (.inl ⟨?_, fun d first => ?_⟩)⟩
          · rw [eslUrlEncodeFrom, if_neg full, unsafe_, if_pos rfl, if_pos narrow]
          · cases first
            rw [same, List.length_append]
            exact narrow
        · by_cases beyond : 128 ≤ c.toNat
          · refine ⟨[], c :: url, encodesPrefix_nil (.inr ⟨?_, c, rfl, beyond⟩)⟩
            rw [eslUrlEncodeFrom, if_neg full, unsafe_, if_pos rfl, if_neg narrow, if_pos beyond]
          · refine ⟨c :: front, back, encodes.cons (by omega) ?_ ?_⟩
            · rw [eslUrlEncodeFrom, if_neg full, unsafe_, if_pos rfl, if_neg narrow, if_neg beyond, same]
            · rw [same, List.length_append]
              show buf.length + 3 ≤ len
              omega

/-- Of a C string `esl_url_encode` writes so much as fits with the zero byte behind it, and
`esl_url_decode` reads that much back; a text whose encoding leaves a byte is read back whole.  It reads
outside its table only for a character beyond ASCII. -/
theorem decode_encode {url : Text} (noZero : '\x00' ∉ url) {len : Nat} (some : 0 < len) :
    (∀ text, eslUrlEncode url len = .ok text →
      text.length < len ∧ eslUrlDecode text <+: url ∧ ((encoded url).length + 1 < len → eslUrlDecode text = url)) ∧
      (∀ fault, eslUrlEncode url len = .error fault → ∃ c ∈ url, 128 ≤ c.toNat) ∧
      ((∀ c ∈ url, c.toNat < 128) → (encoded url).length + 1 < len → eslUrlEncode url len = .ok (encoded url)) := by
  obtain ⟨front, back, encodes⟩ := eslUrlEncodeFrom_eq (len - 1) [] url
  have whole := encodes.whole
  have fits := encodes.fits
  have noZeroFront : '\x00' ∉ front := fun member => noZero (by rw [whole]; exact List.mem_append_left _ member)
  have all (room : (encoded url).length + 1 < len)
      (stops : ∀ c, back.head? = Option.some c → len - 1 ≤ ([] ++ encoded (front ++ [c])).length) : back = [] := by
    cases back with
    | nil => rfl
    | cons c back =>
      have full := stops c rfl
      rw [whole, List.append_cons, encoded_append, List.length_append] at room
      rw [List.nil_append] at full
      omega
  rw [List.nil_append, List.length_nil] at fits
  rw [eslUrlEncode, if_neg (by omega)]
  rcases encodes.returns with ⟨returns, stops⟩ | ⟨returns, c, first, beyond⟩
  · rw [returns]
    refine ⟨fun text same => ?_, nofun, fun _ room => ?_⟩
    · cases same
      rw [List.nil_append, eslUrlDecode_encoded encodes.ascii noZeroFront]
      refine ⟨by omega, ⟨back, whole.symm⟩, fun room => ?_⟩
      rw [whole, all room stops, List.append_nil]
    · rw [whole, all room stops, List.append_nil, List.nil_append]
  · rw [returns]
    have member : c ∈ url := by
      rw [whole]
      exact List.mem_append_right _ (List.mem_of_mem_head? first)
    refine ⟨nofun, fun _ _ => ⟨c, member, beyond⟩, fun ascii => ?_⟩
    have within := ascii c member
    omega

/-- A blank is escaped, and the buffer has room for it and a byte more. -/
theorem decode_encode_blank :
    (∀ text, eslUrlEncode "a b".toList 7 = .ok text →
      text.length < 7 ∧ eslUrlDecode text <+: "a b".toList ∧
        ((encoded "a b".toList).length + 1 < 7 → eslUrlDecode text = "a b".toList)) ∧
      (∀ fault, eslUrlEncode "a b".toList 7 = .error fault → ∃ c ∈ "a b".toList, 128 ≤ c.toNat) ∧
      ((∀ c ∈ "a b".toList, c.toNat < 128) → (encoded "a b".toList).length + 1 < 7 →
        eslUrlEncode "a b".toList 7 = .ok (encoded "a b".toList)) :=
  decode_encode (by decide) (by decide)

/-- What needs an escape does not occur in an encoded text. -/
theorem not_mem_encoded {url : Text} (ascii : ∀ c ∈ url, c.toNat < 128) {c : Char} (unsafe_ : escaped c = true)
    (noPercent : c ≠ '%') : c ∉ encoded url := by
  intro member
  obtain ⟨d, memberUrl, memberChar⟩ := List.mem_flatMap.mp member
  have within := ascii d memberUrl
  rw [encodedChar] at memberChar
  split at memberChar
  · rw [List.mem_cons, List.mem_cons, List.mem_singleton] at memberChar
    rcases memberChar with same | same | same
    · exact noPercent same
    · rw [same, (hexDigit_plain (by omega)).2.2.2] at unsafe_
      cases unsafe_
    · rw [same, (hexDigit_plain (by omega)).2.2.2] at unsafe_
      cases unsafe_
  · rename_i safe
    rw [List.mem_singleton.mp memberChar] at unsafe_
    exact safe unsafe_

/-! ## The pieces of an array -/

/-- The mark between two elements occurs in a text. -/
abbrev marked (text : Text) : Bool := strstr "|:".toList text

theorem singleton_prefix_iff (c : Char) (text : Text) : [c] <+: text ↔ text.head? = some c := by
  cases text with
  | nil => simp
  | cons d rest =>
    rw [List.cons_prefix_cons, List.head?_cons, Option.some.injEq]
    exact ⟨fun same => same.1.symm, fun same => ⟨same.symm, List.nil_prefix⟩⟩

theorem marked_cons (c : Char) (text : Text) :
    marked (c :: text) = ((c == '|' && text.head? == some ':') || marked text) := by
  have two : "|:".toList = ['|', ':'] := by decide
  have first : ['|', ':'].isPrefixOf (c :: text) = (c == '|' && text.head? == some ':') := by
    rw [Bool.eq_iff_iff, List.isPrefixOf_iff_prefix, List.cons_prefix_cons, singleton_prefix_iff, Bool.and_eq_true,
      beq_iff_eq, beq_iff_eq, eq_comm]
  rw [marked, marked, two, strstr, first]

theorem eslSeparateString_ne_nil (text : Text) : eslSeparateString text ≠ [] := by
  fun_induction eslSeparateString text <;> simp_all

/-- A character that does not start a mark goes to the first piece. -/
theorem eslSeparateString_cons {c : Char} {text : Text} (noMark : c ≠ '|' ∨ text.head? ≠ some ':') {piece : Text}
    {pieces : List Text} (rest : eslSeparateString text = piece :: pieces) :
    eslSeparateString (c :: text) = (c :: piece) :: pieces := by
  rw [eslSeparateString, rest]
  rintro behind rfl rfl
  simp at noMark

theorem eslSeparateString_element {element : Text} (plain : marked element = false) (rest : Text) :
    eslSeparateString (element ++ '|' :: ':' :: rest) = element :: eslSeparateString rest := by
  induction element with
  | nil => rfl
  | cons c element inductionHypothesis =>
    rw [marked_cons, Bool.or_eq_false_iff] at plain
    rw [List.cons_append]
    refine eslSeparateString_cons ?_ (inductionHypothesis plain.2)
    have noMark := plain.1
    cases element with
    | nil => exact .inr (by simp)
    | cons d element =>
      by_cases bar : c = '|'
      · refine .inr ?_
        subst bar
        simpa using noMark
      · exact .inl bar

theorem eslSeparateString_last {element : Text} (plain : marked element = false) :
    eslSeparateString element = [element] := by
  induction element with
  | nil => rfl
  | cons c element inductionHypothesis =>
    rw [marked_cons, Bool.or_eq_false_iff] at plain
    refine eslSeparateString_cons ?_ (inductionHypothesis plain.2)
    have noMark := plain.1
    by_cases bar : c = '|'
    · refine .inr ?_
      subst bar
      simpa using noMark
    · exact .inl bar

theorem joined_cons (c : Char) (piece : Text) (pieces : List Text) :
    joined ((c :: piece) :: pieces) = c :: joined (piece :: pieces) := by
  cases pieces <;> rfl

theorem joined_mark {pieces : List Text} (some : pieces ≠ []) :
    joined ([] :: pieces) = '|' :: ':' :: joined pieces := by
  cases pieces with
  | nil => exact absurd rfl some
  | cons piece pieces => rfl

/-- The pieces of a text joined are the text. -/
theorem joined_eslSeparateString (text : Text) : joined (eslSeparateString text) = text := by
  fun_induction eslSeparateString text with
  | case1 => rfl
  | case2 rest inductionHypothesis => rw [joined_mark (eslSeparateString_ne_nil rest), inductionHypothesis]
  | case3 c rest _ piece pieces isRest inductionHypothesis =>
    rw [isRest] at inductionHypothesis
    rw [joined_cons, inductionHypothesis]
  | case4 c rest _ isRest => exact absurd isRest (eslSeparateString_ne_nil rest)

/-- No piece of a text holds a mark. -/
theorem not_marked_of_piece (text : Text) : ∀ piece ∈ eslSeparateString text, marked piece = false := by
  fun_induction eslSeparateString text with
  | case1 => decide
  | case2 rest inductionHypothesis => exact List.forall_mem_cons.mpr ⟨by decide, inductionHypothesis⟩
  | case3 c rest noMark first pieces isRest inductionHypothesis =>
    rw [isRest, List.forall_mem_cons] at inductionHypothesis
    refine List.forall_mem_cons.mpr ⟨?_, inductionHypothesis.2⟩
    rw [marked_cons, inductionHypothesis.1, Bool.or_false, Bool.and_eq_false_iff]
    by_cases bar : c = '|'
    · -- the first piece starts as the text does, which does not go on with a colon
      right
      have whole := joined_eslSeparateString rest
      rw [isRest] at whole
      cases first with
      | nil => rfl
      | cons d first =>
        rw [joined_cons] at whole
        have other : d ≠ ':' := by
          rintro rfl
          exact noMark _ bar whole.symm
        simpa using other
    · left
      simpa using bar
  | case4 c rest _ isRest => exact absurd isRest (eslSeparateString_ne_nil rest)

/-- The pieces of joined elements are the elements, exactly where there are some and none holds a mark. -/
theorem eslSeparateString_joined (elements : List Text) :
    eslSeparateString (joined elements) = elements ↔ elements ≠ [] ∧ ∀ element ∈ elements, marked element = false := by
  constructor
  · intro same
    rw [← same]
    exact ⟨eslSeparateString_ne_nil _, not_marked_of_piece _⟩
  · rintro ⟨some, plain⟩
    induction elements with
    | nil => exact absurd rfl some
    | cons element elements inductionHypothesis =>
      rw [List.forall_mem_cons] at plain
      cases elements with
      | nil => exact eslSeparateString_last plain.1
      | cons next elements =>
        rw [joined, eslSeparateString_element plain.1, inductionHypothesis nofun plain.2]
        nofun

end CallCenter.Verified.EslTexts
