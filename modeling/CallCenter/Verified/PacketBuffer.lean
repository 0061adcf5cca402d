import CallCenter.Foundation.Runs
import CallCenter.Model.EslBuffer

/-!
# The packet buffer as a tape

What a buffer holds is a tape: bytes that were read, which a later write may forget, and bytes ahead.
Every operation is the same operation on the tape, as long as writes stay within `max_len` and no search
for a packet meets a line feed behind the bytes in use.
-/

namespace CallCenter.Verified.PacketBuffer

open CallCenter.Foundation (Text Run Guarded)
open CallCenter.Model CallCenter.Model.EslBuffer

/-- The bytes in use. -/
def contents (buffer : EslBuffer) : Text := (buffer.data.drop buffer.head).take buffer.used

/-- The bytes in use end where the memory was last written, inside it. -/
structure Placed (buffer : EslBuffer) : Prop where
  ends : buffer.head + buffer.used = buffer.actuallyUsed
  inside : buffer.actuallyUsed ≤ buffer.data.length
  allocated : buffer.data ≠ []

theorem length_contents {buffer : EslBuffer} (placed : Placed buffer) :
    (contents buffer).length = buffer.used := by
  have ends := placed.ends
  have inside := placed.inside
  rw [contents, List.length_take, List.length_drop]
  omega

theorem placed_create (blocksize maxLen : Nat) {startLen : Nat} (some : 0 < startLen) :
    Placed (eslBufferCreate blocksize startLen maxLen) where
  ends := rfl
  inside := Nat.zero_le _
  allocated := by
    intro empty
    have length := congrArg List.length empty
    rw [eslBufferCreate, List.length_replicate, List.length_nil] at length
    omega

/-! ## Reading -/

theorem reading_eq (datalen : Nat) (buffer : EslBuffer) : buffer.reading datalen = min datalen buffer.used := by
  rw [reading]
  grind

/-- Some of the bytes in use are passed. -/
def pass (count : Nat) (buffer : EslBuffer) : EslBuffer :=
  { buffer with used := buffer.used - count, head := buffer.head + count }

theorem placed_pass {buffer : EslBuffer} (placed : Placed buffer) {count : Nat} (held : count ≤ buffer.used) :
    Placed (pass count buffer) where
  ends := by
    have ends := placed.ends
    simp only [pass]
    omega
  inside := placed.inside
  allocated := placed.allocated

theorem contents_pass (count : Nat) (buffer : EslBuffer) :
    contents (pass count buffer) = (contents buffer).drop count := by
  rw [contents, contents, pass, List.drop_take, List.drop_drop]

theorem take_pass (count : Nat) (buffer : EslBuffer) (held : count ≤ buffer.used) :
    (pass count buffer).data.take (pass count buffer).head =
      buffer.data.take buffer.head ++ (contents buffer).take count := by
  rw [contents, List.take_take, Nat.min_eq_left held]
  exact List.take_add

theorem read_eq (datalen : Nat) (buffer : EslBuffer) :
    buffer.read datalen = ((contents buffer).take datalen, pass (min datalen buffer.used) buffer) := by
  rw [EslBuffer.read, reading_eq, pass, contents, List.take_take]

theorem toss_eq (datalen : Nat) (buffer : EslBuffer) :
    buffer.toss datalen = (buffer.used - min datalen buffer.used, pass (min datalen buffer.used) buffer) := by
  rw [toss, reading_eq, pass]

/-! ## Writing -/

/-- A write that `max_len` does not forbid. -/
def Allowed (buffer : EslBuffer) (data : Text) : Prop :=
  buffer.maxLen = 0 ∨ buffer.used + data.length ≤ buffer.maxLen

/-- Bytes put behind a window make it longer by them. -/
theorem window_append (front data behind : Text) {head used : Nat} (ends : front.length = head + used) :
    ((front ++ data ++ behind).drop head).take (used + data.length) = front.drop head ++ data := by
  have window : (front.drop head ++ data).length = used + data.length := by
    rw [List.length_append, List.length_drop]
    omega
  rw [List.append_assoc, List.drop_append_of_le_length (by omega), ← List.append_assoc, ← window]
  exact List.take_left

theorem store_eq {buffer : EslBuffer} (placed : Placed buffer) (data : Text)
    (room : buffer.actuallyUsed + data.length ≤ buffer.data.length) :
    ∃ stored, buffer.store data = .ok stored ∧ Placed stored ∧ stored.used = buffer.used + data.length ∧
      contents stored = contents buffer ++ data ∧ stored.data.take stored.head = buffer.data.take buffer.head ∧
      stored.data.drop stored.actuallyUsed = buffer.data.drop (buffer.actuallyUsed + data.length) ∧
      stored.actuallyUsed = buffer.actuallyUsed + data.length ∧
      stored.maxLen = buffer.maxLen ∧ stored.loops = buffer.loops := by
  have ends := placed.ends
  have inside := placed.inside
  have before : (buffer.data.take (buffer.head + buffer.used)).length = buffer.head + buffer.used := by
    rw [List.length_take]
    omega
  refine ⟨_, if_neg (by rw [len]; omega), ⟨by dsimp only; omega, ?_, ?_⟩, rfl, ?_, ?_, ?_, rfl, rfl, rfl⟩
  · simp only [List.length_append, List.length_take, List.length_drop]
    omega
  · intro empty
    have length := congrArg List.length empty
    simp only [List.length_append, List.length_take, List.length_drop, List.length_nil] at length
    have positive := List.length_pos_iff.mpr placed.allocated
    omega
  · have window := window_append _ data (buffer.data.drop (buffer.head + buffer.used + data.length)) before
    rw [List.drop_take, Nat.add_sub_cancel_left] at window
    exact window
  · dsimp only
    rw [List.append_assoc, List.take_append_of_le_length (by omega), List.take_take]
    congr 1
    omega
  · dsimp only
    have written : (buffer.data.take (buffer.head + buffer.used) ++ data).length =
        buffer.actuallyUsed + data.length := by
      rw [List.length_append]
      omega
    rw [← written, List.drop_left, written]
    congr 1
    omega

theorem compact_eq {buffer : EslBuffer} (placed : Placed buffer) :
    Placed buffer.compact ∧ contents buffer.compact = contents buffer ∧
      buffer.compact.data.length = buffer.data.length := by
  have ends := placed.ends
  have inside := placed.inside
  have kept : buffer.compact.data.length = buffer.data.length := by
    have length := length_contents placed
    rw [contents] at length
    rw [compact, List.length_append, length, List.length_drop]
    omega
  refine ⟨⟨Nat.zero_add _, ?_, ?_⟩, ?_, kept⟩
  · rw [kept]
    show buffer.used ≤ _
    omega
  · intro empty
    rw [empty, List.length_nil] at kept
    have positive := List.length_pos_iff.mpr placed.allocated
    omega
  · show ((contents buffer ++ buffer.data.drop buffer.used).drop 0).take buffer.used = contents buffer
    rw [List.drop_zero, List.take_append_of_le_length (by rw [length_contents placed]), List.take_of_length_le
      (by rw [length_contents placed])]

theorem grow_eq {buffer : EslBuffer} (placed : Placed buffer) (start : buffer.head = 0) (fresh : Nat → Char)
    (datalen : Nat) :
    Placed (buffer.grow fresh datalen) ∧ contents (buffer.grow fresh datalen) = contents buffer ∧
      buffer.data.length + datalen ≤ (buffer.grow fresh datalen).data.length := by
  have ends := placed.ends
  have inside := placed.inside
  refine ⟨⟨?_, ?_, ?_⟩, ?_, ?_⟩
  · show 0 + buffer.used = buffer.actuallyUsed
    omega
  · simp only [grow, List.length_append]
    omega
  · intro empty
    exact placed.allocated (List.append_eq_nil_iff.mp empty).1
  · rw [contents, contents, start]
    show ((buffer.data ++ _).drop 0).take buffer.used = _
    rw [List.drop_zero, List.drop_zero, List.take_append_of_le_length (by omega)]
  · simp only [grow, len, List.length_append, List.length_map, List.length_range]
    omega

/-- A write appends to the bytes in use; what was read before them is kept or forgotten. -/
theorem write_eq {buffer : EslBuffer} (placed : Placed buffer) (fresh : Nat → Char) {data : Text}
    (some : data ≠ []) (allowed : Allowed buffer data) :
    ∃ written, buffer.write fresh data = .ok (written.used, written) ∧ Placed written ∧
      written.used = buffer.used + data.length ∧ contents written = contents buffer ++ data ∧
      (written.data.take written.head = buffer.data.take buffer.head ∨ written.data.take written.head = []) ∧
      (buffer.actuallyUsed + data.length ≤ buffer.data.length →
        written.data.drop written.actuallyUsed = buffer.data.drop (buffer.actuallyUsed + data.length) ∧
        written.actuallyUsed = buffer.actuallyUsed + data.length) ∧
      written.maxLen = buffer.maxLen ∧ written.loops = buffer.loops := by
  have ends := placed.ends
  have inside := placed.inside
  rw [write, if_neg placed.allocated, if_neg some]
  by_cases room : buffer.actuallyUsed + data.length ≤ buffer.data.length
  · -- there is room behind what was last written
    obtain ⟨stored, isStored, placedStored, used, appended, passed, behind, last, maxLen, loops⟩ :=
      store_eq placed data room
    have crowded : ¬ (buffer.len - buffer.actuallyUsed < data.length ∧
        (buffer.maxLen = 0 ∨ buffer.used + data.length ≤ buffer.maxLen)) := by
      rw [len]
      omega
    have enough : ¬ buffer.len - buffer.used < data.length := by
      rw [len]
      omega
    refine ⟨stored, ?_, placedStored, used, appended, .inl passed, fun _ => ⟨behind, last⟩, maxLen, loops⟩
    simp only [if_neg crowded, if_neg enough, isStored]
    rfl
  · -- what is in use moves to the start, and the memory grows where that is not enough
    have crowded : buffer.len - buffer.actuallyUsed < data.length ∧
        (buffer.maxLen = 0 ∨ buffer.used + data.length ≤ buffer.maxLen) := ⟨by rw [len]; omega, allowed⟩
    obtain ⟨placedCompact, sameCompact, lengthCompact⟩ := compact_eq placed
    simp only [if_pos crowded]
    have usedCompact : buffer.compact.used = buffer.used := rfl
    have endCompact : buffer.compact.actuallyUsed = buffer.used := rfl
    split
    · obtain ⟨placedGrown, sameGrown, lengthGrown⟩ := grow_eq placedCompact rfl fresh data.length
      have usedGrown : (buffer.compact.grow fresh data.length).used = buffer.used := rfl
      have endGrown : (buffer.compact.grow fresh data.length).actuallyUsed = buffer.used := rfl
      obtain ⟨stored, isStored, placedStored, used, appended, passed, _, _, maxLen, loops⟩ :=
        store_eq placedGrown data (by omega)
      refine ⟨stored, ?_, placedStored, by omega, by rw [appended, sameGrown, sameCompact], .inr ?_,
        fun fits => absurd fits room, maxLen, loops⟩
      · rw [if_neg (by rw [len]; omega), isStored]
        rfl
      · rw [passed]
        exact List.take_zero
    · rename_i enough
      rw [len] at enough
      obtain ⟨stored, isStored, placedStored, used, appended, passed, _, _, maxLen, loops⟩ :=
        store_eq placedCompact data (by omega)
      refine ⟨stored, ?_, placedStored, by omega, by rw [appended, sameCompact], .inr ?_,
        fun fits => absurd fits room, maxLen, loops⟩
      · rw [isStored]
        rfl
      · rw [passed]
        exact List.take_zero

/-! ## Packets -/

/-- How long the first packet of a text is, with the blank line at its end; a zero byte ends the search. -/
def packetIn : Text → Option Nat
  | [] => none
  | '\x00' :: _ => none
  | '\n' :: '\n' :: _ => some 2
  | '\n' :: '\r' :: '\n' :: _ => some 3
  | _ :: rest => (packetIn rest).map (· + 1)

/-- A text that ends in a line end, or in one and the carriage return of the next. -/
def Open (text : Text) : Prop := ['\n'] <:+ text ∨ ['\n', '\r'] <:+ text

instance (text : Text) : Decidable (Open text) := inferInstanceAs (Decidable (_ ∨ _))

theorem open_cons {rest : Text} (more : rest ≠ []) (further : rest ≠ ['\r']) (c : Char) :
    Open (c :: rest) ↔ Open rest := by
  have last : ['\n'] <:+ c :: rest ↔ ['\n'] <:+ rest := by
    rw [List.suffix_cons_iff]
    refine ⟨fun either => either.resolve_left fun same => ?_, .inr⟩
    exact more (List.cons.inj same).2.symm
  have lastTwo : ['\n', '\r'] <:+ c :: rest ↔ ['\n', '\r'] <:+ rest := by
    rw [List.suffix_cons_iff]
    refine ⟨fun either => either.resolve_left fun same => ?_, .inr⟩
    exact further (List.cons.inj same).2.symm
  rw [Open, Open, last, lastTwo]

theorem packetIn_le {text : Text} {length : Nat} (found : packetIn text = some length) :
    0 < length ∧ length ≤ text.length := by
  induction text using packetIn.induct generalizing length with
  | case1 | case2 => simp [packetIn] at found
  | case3 rest =>
    rw [packetIn] at found
    cases found
    simp
  | case4 rest =>
    rw [packetIn] at found
    cases found
    simp
  | case5 c rest notZero notBlank notReturn inductionHypothesis =>
    rw [packetIn] at found
    · obtain ⟨inner, isInner, rfl⟩ := Option.map_eq_some_iff.mp found
      have bound := inductionHypothesis isInner
      simp only [List.length_cons]
      omega
    all_goals assumption

/-- A packet is where it is, whatever follows it. -/
theorem packetIn_append {text : Text} {length : Nat} (found : packetIn text = some length) (more : Text) :
    packetIn (text ++ more) = some length := by
  induction text using packetIn.induct generalizing length with
  | case1 | case2 => simp [packetIn] at found
  | case3 rest => simpa [packetIn] using found
  | case4 rest => simpa [packetIn] using found
  | case5 c rest notZero notBlank notReturn inductionHypothesis =>
    rw [packetIn] at found
    · obtain ⟨inner, isInner, rfl⟩ := Option.map_eq_some_iff.mp found
      have later := inductionHypothesis isInner
      match rest with
      | [] => simp [packetIn] at isInner
      | d :: behind =>
        rw [List.cons_append, List.cons_append, packetIn, ← List.cons_append, later]
        · rfl
        · exact notZero
        · rintro more rfl same
          exact notBlank behind rfl (by rw [(List.cons.inj same).1])
        · rintro more rfl same
          obtain ⟨rfl, same⟩ := List.cons.inj same
          cases behind with
          | nil => simp [packetIn] at isInner
          | cons e behind =>
            have same := (List.cons.inj (List.cons.inj same).2).1
            exact notReturn behind rfl (by rw [same])
    all_goals assumption

/-- Of a line end followed by more of the text than a carriage return, the text alone tells whether a
blank line is behind it. -/
theorem blankBehind_within {rest : Text} (more : rest ≠ []) (further : rest ≠ ['\r'])
    (notBlank : ∀ tail, rest ≠ '\n' :: tail) (notReturn : ∀ tail, rest ≠ '\r' :: '\n' :: tail)
    (behind : Text) : blankBehind rest.length (rest ++ behind) = .ok none := by
  match rest with
  | [] => exact absurd rfl more
  | [c] =>
    rw [List.singleton_append, blankBehind, if_neg]
    · rintro rfl
      exact notBlank [] rfl
    · intro other
      exact further (by rw [other])
  | c :: d :: rest =>
    by_cases carriage : c = '\r'
    · subst carriage
      rw [List.cons_append, List.cons_append, blankBehind, if_neg (by simp)]
      simp only [Except.ok.injEq, ite_eq_right_iff, reduceCtorEq, imp_false]
      rintro rfl
      exact notReturn rest rfl
    · rw [List.cons_append, List.cons_append, blankBehind, if_neg]
      · rintro rfl
        exact notBlank (d :: rest) rfl
      · exact carriage

/-- The loop goes past a character that no blank line follows. -/
theorem packetFrom_pass {c : Char} {rest behind : Text} (notZero : c ≠ '\x00')
    (passed : c = '\n' → blankBehind rest.length (rest ++ behind) = .ok none) (p : Nat) :
    packetFrom p (c :: rest ++ behind) (c :: rest).length = packetFrom (p + 1) (rest ++ behind) rest.length := by
  rw [List.cons_append, List.length_cons, packetFrom, if_neg notZero]
  split
  · rename_i line
    rw [passed line]
    rfl
  · rfl

theorem packetIn_pass {c : Char} {rest : Text} (notZero : c ≠ '\x00')
    (notBlank : ∀ tail, c = '\n' → rest = '\n' :: tail → False)
    (notReturn : ∀ tail, c = '\n' → rest = '\r' :: '\n' :: tail → False) :
    packetIn (c :: rest) = (packetIn rest).map (· + 1) := by
  rw [packetIn]
  · exact notZero
  · exact notBlank
  · exact notReturn

/-- The loop finds the packet that is there, whatever is behind the bytes in use. -/
theorem packetFrom_of_packetIn {text : Text} {length : Nat} (found : packetIn text = some length)
    (p : Nat) (behind : Text) : packetFrom p (text ++ behind) text.length = .ok (some (p + length)) := by
  induction text using packetIn.induct generalizing length p with
  | case1 | case2 => simp [packetIn] at found
  | case3 rest | case4 rest =>
    rw [packetIn] at found
    cases found
    rfl
  | case5 c rest notZero notBlank notReturn inductionHypothesis =>
    rw [packetIn_pass notZero notBlank notReturn] at found
    obtain ⟨inner, isInner, rfl⟩ := Option.map_eq_some_iff.mp found
    rw [packetFrom_pass notZero, inductionHypothesis isInner]
    · congr 2
      omega
    · rintro rfl
      refine blankBehind_within ?_ ?_ (fun tail => notBlank tail rfl) (fun tail => notReturn tail rfl) behind
      · rintro rfl
        cases isInner
      · rintro rfl
        cases isInner

/-- Where there is no packet, the loop sees none either, but for one case: the text ends in a line end,
and behind it in the memory there happens to be another. -/
theorem packetFrom_of_none {text : Text} (none : packetIn text = none) (p : Nat) (c : Char) (behind : Text) :
    packetFrom p (text ++ c :: behind) text.length =
      .ok (if '\x00' ∉ text ∧ Open text ∧ c = '\n' then some (p + text.length + 1) else .none) := by
  induction text using packetIn.induct generalizing p with
  | case1 => simp [packetFrom, Open]
  | case2 rest => simp [packetFrom]
  | case3 | case4 => cases none
  | case5 d rest notZero notBlank notReturn inductionHypothesis =>
    rw [packetIn_pass notZero notBlank notReturn, Option.map_eq_none_iff] at none
    have zero : '\x00' ∉ d :: rest ↔ '\x00' ∉ rest := by
      rw [List.mem_cons, not_or]
      exact and_iff_right (Ne.symm notZero)
    have position : p + (d :: rest).length + 1 = p + 1 + rest.length + 1 := by
      rw [List.length_cons]
      omega
    have goesOn : packetFrom (p + 1) (rest ++ c :: behind) rest.length = _ := inductionHypothesis none (p + 1)
    by_cases ends : rest = [] ∨ rest = ['\r']
    · -- the byte behind the text may complete a blank line
      rw [List.cons_append, List.length_cons, packetFrom, if_neg notZero]
      by_cases line : d = '\n'
      · subst line
        rw [if_pos rfl]
        obtain rfl | rfl := ends
        · by_cases blank : c = '\n'
          · subst blank
            simp [blankBehind, Open, bind, Except.bind, pure, Except.pure]
          · have notBehind : blankBehind ([] : Text).length ([] ++ c :: behind) = .ok .none := by
              rw [List.nil_append, List.length_nil]
              by_cases carriage : c = '\r'
              · subst carriage
                rfl
              · rw [blankBehind, if_neg blank]
                exact carriage
            rw [notBehind]
            simp [packetFrom, blank, bind, Except.bind]
        · by_cases blank : c = '\n'
          · subst blank
            simp [blankBehind, Open, bind, Except.bind, pure, Except.pure]
          · have notBehind : blankBehind ['\r'].length (['\r'] ++ c :: behind) = .ok .none := by
              simp [blankBehind, blank]
            rw [notBehind]
            simp [packetFrom, blank, bind, Except.bind]
      · rw [if_neg line, goesOn]
        obtain rfl | rfl := ends
        · simp [Open, List.suffix_cons_iff, Ne.symm line]
        · simp [Open, List.suffix_cons_iff, Ne.symm line]
    · rw [not_or] at ends
      rw [packetFrom_pass notZero, goesOn, position]
      · simp only [zero, open_cons ends.1 ends.2]
      · rintro rfl
        exact blankBehind_within ends.1 ends.2 (fun tail => notBlank tail rfl) (fun tail => notReturn tail rfl) _

/-- The memory from the head on. -/
theorem drop_head_eq (buffer : EslBuffer) :
    buffer.data.drop buffer.head = contents buffer ++ buffer.data.drop (buffer.head + buffer.used) := by
  rw [contents, ← List.drop_drop, List.take_append_drop]

/-- Behind the bytes in use there is memory, and it does not happen to hold a line feed. -/
def NoLineBehind (buffer : EslBuffer) : Prop :=
  ∃ c, buffer.data[buffer.head + buffer.used]? = some c ∧ c ≠ '\n'

/-- The first packet of the bytes in use is read, or nothing where there is none. -/
theorem readPacket_eq {buffer : EslBuffer} (placed : Placed buffer) (maxlen : Nat)
    (behind : (packetIn (contents buffer)).isSome = true ∨ NoLineBehind buffer) :
    buffer.readPacket maxlen = .ok (buffer.read (min maxlen ((packetIn (contents buffer)).getD 0))) := by
  have searched : packetFrom 0 (buffer.data.drop buffer.head) buffer.used =
      .ok (packetIn (contents buffer)) := by
    rw [drop_head_eq, ← length_contents placed]
    cases found : packetIn (contents buffer) with
    | some length =>
      rw [packetFrom_of_packetIn found, Nat.zero_add]
    | none =>
      rw [found] at behind
      obtain ⟨c, isBehind, noLine⟩ := behind.resolve_left (by simp)
      obtain ⟨inside, isChar⟩ := List.getElem?_eq_some_iff.mp isBehind
      rw [length_contents placed, List.drop_eq_getElem_cons inside, isChar, ← length_contents placed,
        packetFrom_of_none found, if_neg fun spurious => noLine spurious.2.2]
  rw [readPacket, searched]
  cases packetIn (contents buffer) with
  | none =>
    rw [Option.getD_none, Nat.min_zero]
    rfl
  | some length =>
    show Except.ok (buffer.read (if length > maxlen then maxlen else length)) = _
    rw [Option.getD_some]
    congr 2
    grind

/-! ## The tape -/

/-- Bytes that were read and may still be there, the bytes ahead, and the loops that are left. -/
structure Tape where
  passed : Text
  ahead : Text
  loops : Int
  deriving DecidableEq, Repr

def tape (buffer : EslBuffer) : Tape := ⟨buffer.data.take buffer.head, contents buffer, buffer.loops⟩

/-- The operations on a buffer that change it. -/
inductive Operation where
  | write (data : Text)
  | zwrite (data : Text)
  | read (datalen : Nat)
  | readPacket (maxlen : Nat)
  | toss (datalen : Nat)
  | seek (datalen : Nat)
  | setLoops (loops : Int)
  | readLoop (datalen : Nat)
  | zero
  deriving DecidableEq, Repr

/-- An operation, the number it returned and the bytes it delivered. -/
structure Performed where
  operation : Operation
  returned : Nat := 0
  delivered : Text := []
  deriving DecidableEq, Repr

/-- The operation on a buffer: what it returns, what it delivers and the buffer behind it. -/
def perform (fresh : Nat → Char) (buffer : EslBuffer) : Operation → Except EslFault (Nat × Text × EslBuffer)
  | .write data => (buffer.write fresh data).map fun (returned, after) => (returned, [], after)
  | .zwrite data => (buffer.zwrite fresh data).map fun (returned, after) => (returned, [], after)
  | .read datalen =>
    let (delivered, after) := buffer.read datalen
    .ok (delivered.length, delivered, after)
  | .readPacket maxlen =>
    (buffer.readPacket maxlen).map fun (delivered, after) => (delivered.length, delivered, after)
  | .toss datalen =>
    let (returned, after) := buffer.toss datalen
    .ok (returned, [], after)
  | .seek datalen =>
    let (returned, after) := buffer.seek datalen
    .ok (returned, [], after)
  | .setLoops loops => .ok (0, [], buffer.setLoops loops)
  | .readLoop datalen =>
    let (returned, delivered, after) := buffer.readLoop datalen
    .ok (returned, delivered, after)
  | .zero => buffer.zero.map fun after => (0, [], after)

/-- The tape with its position moved behind some bytes more. -/
def Tape.advance (count : Nat) (tape : Tape) : Tape :=
  { tape with passed := tape.passed ++ tape.ahead.take count, ahead := tape.ahead.drop count }

/-- The tape with its position moved back to the start of what it still holds. -/
def Tape.rewind (tape : Tape) : Tape := { tape with passed := [], ahead := tape.passed ++ tape.ahead }

/-- What an operation does on a tape. -/
inductive Tape.Does : Tape → Performed → Tape → Prop where
  | write (tape : Tape) (data : Text) :
    Does tape ⟨.write data, (tape.ahead ++ data).length, []⟩ { tape with ahead := tape.ahead ++ data }
  | writeForgets (tape : Tape) (data : Text) :
    Does tape ⟨.write data, (tape.ahead ++ data).length, []⟩ { tape with passed := [], ahead := tape.ahead ++ data }
  | zwrite (tape : Tape) (data : Text) :
    Does tape ⟨.zwrite data, (tape.ahead ++ data).length, []⟩ { tape with ahead := tape.ahead ++ data }
  | zwriteForgets (tape : Tape) (data : Text) :
    Does tape ⟨.zwrite data, (tape.ahead ++ data).length, []⟩ { tape with passed := [], ahead := tape.ahead ++ data }
  | read (tape : Tape) (datalen : Nat) :
    Does tape ⟨.read datalen, (tape.ahead.take datalen).length, tape.ahead.take datalen⟩ (tape.advance datalen)
  | readPacket (tape : Tape) (maxlen : Nat) (length : Nat)
      (packet : length = min maxlen ((packetIn tape.ahead).getD 0)) :
    Does tape ⟨.readPacket maxlen, length, tape.ahead.take length⟩ (tape.advance length)
  | toss (tape : Tape) (datalen : Nat) :
    Does tape ⟨.toss datalen, (tape.ahead.drop datalen).length, []⟩ (tape.advance datalen)
  | seekNothing (tape : Tape) (datalen : Nat) (nothing : tape.ahead = []) :
    Does tape ⟨.seek datalen, 0, []⟩ tape
  | seek (tape : Tape) (datalen position : Nat) (something : tape.ahead ≠ [])
      (within : position = min datalen tape.ahead.length) :
    Does tape ⟨.seek datalen, position, []⟩ (tape.rewind.advance position)
  | setLoops (tape : Tape) (loops : Int) : Does tape ⟨.setLoops loops, 0, []⟩ { tape with loops }
  | readLoop (tape : Tape) (datalen : Nat) (once : datalen ≤ tape.ahead.length ∨ tape.loops = 0) :
    Does tape ⟨.readLoop datalen, (tape.ahead.take datalen).length, tape.ahead.take datalen⟩ (tape.advance datalen)
  | readLoopAgain (tape : Tape) (datalen : Nat) (again : Text) (short : tape.ahead.length < datalen)
      (loops : tape.loops ≠ 0) (second : again = tape.rewind.ahead.take (datalen - tape.ahead.length)) :
    Does tape ⟨.readLoop datalen, again.length, tape.ahead ++ again⟩
      { tape.rewind.advance (datalen - tape.ahead.length) with loops := tape.loops - 1 }
  | zero (tape : Tape) : Does tape ⟨.zero, 0, []⟩ { tape with passed := [], ahead := [] }

/-- A write stays within `max_len`, and the search for a packet finds one or meets no line feed behind
the bytes in use. -/
def Sound (buffer : EslBuffer) : Operation → Prop
  | .write data => Allowed buffer data
  | .zwrite data => Allowed buffer data
  | .readPacket _ => (packetIn (contents buffer)).isSome = true ∨ NoLineBehind buffer
  | _ => True

def Performs (fresh : Nat → Char) (before : EslBuffer) (performed : Performed) (after : EslBuffer) : Prop :=
  perform fresh before performed.operation = .ok (performed.returned, performed.delivered, after)

/-! ## Every operation on the tape -/

theorem tape_pass {buffer : EslBuffer} {count : Nat} (held : count ≤ buffer.used) :
    tape (pass count buffer) = (tape buffer).advance count := by
  rw [tape, contents_pass, take_pass count buffer held]
  rfl

theorem advance_min {tape : Tape} {count : Nat} :
    tape.advance (min count tape.ahead.length) = tape.advance count := by
  rcases Nat.le_total count tape.ahead.length with within | beyond
  · rw [Nat.min_eq_left within]
  · rw [Nat.min_eq_right beyond, Tape.advance, Tape.advance, List.take_length, List.drop_length,
      List.take_of_length_le beyond, List.drop_of_length_le beyond]

/-- What reading does, on the tape. -/
theorem tape_read {buffer : EslBuffer} (placed : Placed buffer) (datalen : Nat) :
    buffer.read datalen = ((tape buffer).ahead.take datalen, pass (min datalen buffer.used) buffer) ∧
      tape (pass (min datalen buffer.used) buffer) = (tape buffer).advance datalen ∧
      Placed (pass (min datalen buffer.used) buffer) := by
  refine ⟨read_eq datalen buffer, ?_, placed_pass placed (Nat.min_le_right _ _)⟩
  rw [tape_pass (Nat.min_le_right _ _), ← length_contents placed]
  exact advance_min

/-- The buffer set back to the start of its memory. -/
theorem tape_rewind {buffer : EslBuffer} (placed : Placed buffer) :
    tape { buffer with head := 0, used := buffer.actuallyUsed } = (tape buffer).rewind ∧
      Placed { buffer with head := 0, used := buffer.actuallyUsed } := by
  refine ⟨?_, ⟨Nat.zero_add _, placed.inside, placed.allocated⟩⟩
  have all : buffer.data.take buffer.actuallyUsed = buffer.data.take buffer.head ++ contents buffer := by
    rw [← placed.ends]
    exact List.take_add
  simp only [tape, Tape.rewind, contents, List.take_zero, List.drop_zero, all]

theorem does_write {buffer : EslBuffer} (placed : Placed buffer) (fresh : Nat → Char) {data : Text}
    (allowed : Allowed buffer data) :
    ∃ returned after, buffer.write fresh data = .ok (returned, after) ∧ Placed after ∧
      returned = ((tape buffer).ahead ++ data).length ∧
      (tape after = { tape buffer with ahead := (tape buffer).ahead ++ data } ∨
        tape after = { tape buffer with passed := [], ahead := (tape buffer).ahead ++ data }) := by
  by_cases some : data = []
  · subst some
    refine ⟨buffer.used, buffer, ?_, placed, ?_, .inl ?_⟩
    · rw [write, if_neg placed.allocated, if_pos rfl]
    · rw [List.append_nil]
      exact (length_contents placed).symm
    · rw [List.append_nil]
  · obtain ⟨written, isWritten, placedWritten, used, appended, passed, _, _, loops⟩ :=
      write_eq placed fresh some allowed
    refine ⟨written.used, written, isWritten, placedWritten, ?_, ?_⟩
    · show written.used = (contents buffer ++ data).length
      rw [← appended, length_contents placedWritten]
    · refine passed.imp (fun same => ?_) (fun same => ?_)
      all_goals
        rw [tape, appended, same, loops]
        rfl

theorem readLoop_once {buffer : EslBuffer} (placed : Placed buffer) {datalen : Nat}
    (once : datalen ≤ (tape buffer).ahead.length ∨ buffer.loops = 0) :
    buffer.readLoop datalen = (((tape buffer).ahead.take datalen).length, (tape buffer).ahead.take datalen,
      pass (min datalen buffer.used) buffer) := by
  rw [readLoop, (tape_read placed datalen).1]
  rcases once with enough | noLoops
  · simp only [List.length_take, Nat.min_eq_left enough, Nat.lt_irrefl, if_false]
  · have none : (pass (min datalen buffer.used) buffer).loops = 0 := noLoops
    simp only [none, if_true, ite_self]

theorem readLoop_again {buffer : EslBuffer} (placed : Placed buffer) {datalen : Nat}
    (short : (tape buffer).ahead.length < datalen) (loops : buffer.loops ≠ 0) :
    ∃ after, buffer.readLoop datalen =
        (((tape buffer).rewind.ahead.take (datalen - (tape buffer).ahead.length)).length,
          (tape buffer).ahead ++ (tape buffer).rewind.ahead.take (datalen - (tape buffer).ahead.length), after) ∧
      Placed after ∧
      tape after = { (tape buffer).rewind.advance (datalen - (tape buffer).ahead.length) with
        loops := (tape buffer).loops - 1 } := by
  obtain ⟨rewound, placedRewound⟩ := tape_rewind placed
  obtain ⟨isRead, moved, placedAfter⟩ := tape_read placedRewound (datalen - (tape buffer).ahead.length)
  rw [rewound] at isRead moved
  refine ⟨{ pass (min (datalen - (tape buffer).ahead.length) buffer.actuallyUsed)
    { buffer with head := 0, used := buffer.actuallyUsed } with loops := buffer.loops - 1 }, ?_,
    ⟨placedAfter.ends, placedAfter.inside, placedAfter.allocated⟩, ?_⟩
  · rw [readLoop, (tape_read placed datalen).1, List.take_of_length_le (Nat.le_of_lt short)]
    simp only [if_pos short]
    rw [if_neg (show (pass (min datalen buffer.used) buffer).loops ≠ 0 from loops)]
    simp only [pass, isRead]
  · exact congrArg (fun after : Tape => { after with loops := (tape buffer).loops - 1 }) moved

/-- Every sound operation succeeds, and is the one on the tape. -/
theorem perform_does {buffer : EslBuffer} (placed : Placed buffer) (fresh : Nat → Char) (operation : Operation)
    (sound : Sound buffer operation) :
    ∃ returned delivered after, perform fresh buffer operation = .ok (returned, delivered, after) ∧
      Placed after ∧ Tape.Does (tape buffer) ⟨operation, returned, delivered⟩ (tape after) := by
  have ahead : (tape buffer).ahead.length = buffer.used := length_contents placed
  cases operation with
  | write data =>
    obtain ⟨returned, after, isWritten, placedAfter, rfl, same | same⟩ := does_write placed fresh sound
    all_goals
      refine ⟨_, [], after, by rw [perform, isWritten]; rfl, placedAfter, ?_⟩
      rw [same]
    · exact .write _ data
    · exact .writeForgets _ data
  | zwrite data =>
    obtain ⟨returned, after, isWritten, placedAfter, length, either⟩ := does_write placed fresh sound
    by_cases nothing : returned = 0
    · -- nothing was written and nothing is held, so the buffer is emptied
      have empty : (tape buffer).ahead ++ data = [] := List.length_eq_zero_iff.mp (by omega)
      obtain ⟨noneAhead, rfl⟩ := List.append_eq_nil_iff.mp empty
      have zeroed : Placed { after with used := 0, actuallyUsed := 0, head := 0 } :=
        ⟨rfl, Nat.zero_le _, placedAfter.allocated⟩
      have loops : after.loops = buffer.loops := by
        rcases either with same | same <;> exact congrArg Tape.loops same
      refine ⟨0, [], { after with used := 0, actuallyUsed := 0, head := 0 }, ?_, zeroed, ?_⟩
      · simp only [perform, zwrite, isWritten, nothing, bind, Except.bind, if_true, EslBuffer.zero,
          if_neg placedAfter.allocated]
        rw [EslBuffer.write, if_neg placedAfter.allocated, if_pos rfl]
        rfl
      · have forgets := Tape.Does.zwriteForgets (tape buffer) []
        rw [noneAhead] at forgets
        have emptied : tape { after with used := 0, actuallyUsed := 0, head := 0 } =
            { tape buffer with passed := [], ahead := [] ++ [] } := by
          rw [tape, contents, loops]
          rfl
        rw [emptied]
        exact forgets
    · refine ⟨returned, [], after, ?_, placedAfter, ?_⟩
      · simp only [perform, zwrite, isWritten, bind, Except.bind, if_neg nothing]
        rfl
      · rw [length]
        rcases either with same | same
        all_goals rw [same]
        · exact .zwrite _ data
        · exact .zwriteForgets _ data
  | read datalen =>
    obtain ⟨isRead, moved, placedAfter⟩ := tape_read placed datalen
    refine ⟨_, _, _, by rw [perform, isRead], placedAfter, ?_⟩
    rw [moved]
    exact .read _ datalen
  | readPacket maxlen =>
    obtain ⟨isRead, moved, placedAfter⟩ := tape_read placed (min maxlen ((packetIn (contents buffer)).getD 0))
    refine ⟨_, _, _, by rw [perform, readPacket_eq placed maxlen sound, isRead]; rfl, placedAfter, ?_⟩
    rw [moved]
    have within : min maxlen ((packetIn (contents buffer)).getD 0) ≤ (tape buffer).ahead.length := by
      cases found : packetIn (contents buffer) with
      | none => simp
      | some length =>
        have bound := (packetIn_le found).2
        rw [Option.getD_some]
        show _ ≤ (contents buffer).length
        omega
    rw [List.length_take, Nat.min_eq_left within]
    exact .readPacket _ maxlen _ rfl
  | toss datalen =>
    obtain ⟨_, moved, placedAfter⟩ := tape_read placed datalen
    refine ⟨_, _, _, by rw [perform, toss_eq], placedAfter, ?_⟩
    have left : buffer.used - min datalen buffer.used = ((tape buffer).ahead.drop datalen).length := by
      rw [List.length_drop]
      omega
    rw [left, moved]
    exact .toss _ datalen
  | seek datalen =>
    by_cases nothing : buffer.used < 1
    · have noneAhead : (tape buffer).ahead = [] := List.length_eq_zero_iff.mp (by omega)
      exact ⟨0, [], buffer, by rw [perform, EslBuffer.seek, if_pos nothing], placed, .seekNothing _ _ noneAhead⟩
    · obtain ⟨rewound, placedRewound⟩ := tape_rewind placed
      have bound : min datalen buffer.used ≤ buffer.actuallyUsed := by
        have ends := placed.ends
        omega
      refine ⟨min datalen buffer.used, [], pass (min datalen buffer.used)
        { buffer with head := 0, used := buffer.actuallyUsed }, ?_, placed_pass placedRewound bound, ?_⟩
      · rw [perform, EslBuffer.seek, if_neg nothing, reading_eq, pass]
        simp only [Nat.zero_add]
      · rw [tape_pass bound, rewound]
        refine .seek _ datalen _ (fun empty => ?_) (by rw [ahead])
        rw [empty, List.length_nil] at ahead
        omega
  | setLoops loops => exact ⟨0, [], _, rfl, ⟨placed.ends, placed.inside, placed.allocated⟩, .setLoops _ loops⟩
  | readLoop datalen =>
    obtain ⟨isRead, moved, placedAfter⟩ := tape_read placed datalen
    by_cases once : datalen ≤ (tape buffer).ahead.length ∨ buffer.loops = 0
    · refine ⟨_, _, _, by rw [perform, readLoop_once placed once], placedAfter, ?_⟩
      rw [moved]
      exact .readLoop _ datalen once
    · -- what is still held is read once more from its start
      rw [not_or, Nat.not_le] at once
      obtain ⟨after, isReadAgain, placedAgain, movedAgain⟩ := readLoop_again placed once.1 once.2
      refine ⟨_, _, after, by rw [perform, isReadAgain], placedAgain, ?_⟩
      rw [movedAgain]
      exact .readLoopAgain _ datalen _ once.1 once.2 rfl
  | zero =>
    refine ⟨0, [], { buffer with used := 0, actuallyUsed := 0, head := 0 }, ?_,
      ⟨rfl, Nat.zero_le _, placed.allocated⟩, ?_⟩
    · rw [perform, EslBuffer.zero, if_neg placed.allocated]
      rfl
    · exact .zero _

/-! ## Runs -/

theorem run_placed {fresh : Nat → Char} {start finish : EslBuffer} {performed : List Performed}
    (run : Run (Guarded (fun before action => Sound before action.operation) (Performs fresh)) start performed finish)
    (placed : Placed start) : Placed finish := by
  refine run.invariant Placed ?_ placed
  rintro before action after ⟨sound, performs⟩ placedBefore
  obtain ⟨returned, delivered, reached, isReached, placedAfter, -⟩ :=
    perform_does placedBefore fresh action.operation sound
  rw [Performs, isReached] at performs
  cases performs
  exact placedAfter

/-- A run of sound operations on a new buffer is the same run on an empty tape, and wherever it leads
every sound operation succeeds. -/
theorem runs_as_tape (fresh : Nat → Char) (blocksize maxLen : Nat) {startLen : Nat} (some : 0 < startLen)
    {performed : List Performed} {finish : EslBuffer}
    (run : Run (Guarded (fun before action => Sound before action.operation) (Performs fresh))
      (eslBufferCreate blocksize startLen maxLen) performed finish) :
    Run Tape.Does ⟨[], [], 0⟩ performed (tape finish) ∧
      ∀ operation, Sound finish operation →
        ∃ returned delivered after, Performs fresh finish ⟨operation, returned, delivered⟩ after := by
  have created := placed_create blocksize maxLen some
  constructor
  · have start : tape (eslBufferCreate blocksize startLen maxLen) = ⟨[], [], 0⟩ := by
      rw [tape, contents]
      rfl
    rw [← start]
    generalize eslBufferCreate blocksize startLen maxLen = buffer at run created
    induction run with
    | done => exact .done _
    | @next before middle after action actions first _ inductionHypothesis =>
      obtain ⟨sound, performs⟩ := first
      obtain ⟨returned, delivered, reached, isReached, placedAfter, does⟩ :=
        perform_does created fresh action.operation sound
      rw [Performs, isReached] at performs
      cases performs
      exact .next does (inductionHypothesis placedAfter)
  · intro operation sound
    obtain ⟨returned, delivered, after, isDone, -⟩ :=
      perform_does (run_placed run created) fresh operation sound
    exact ⟨returned, delivered, after, isDone⟩

/-- A packet is read, and the next write moves what is left to the start of the memory. -/
theorem runs_as_tape_packet :
    Run Tape.Does ⟨[], [], 0⟩
        [⟨.write ['a', '\n', '\n', 'b'], 4, []⟩, ⟨.readPacket 9, 3, ['a', '\n', '\n']⟩,
          ⟨.write ['\n', '\n', 'c', 'd', 'e'], 6, []⟩]
        (tape ⟨['b', '\n', '\n', 'c', 'd', 'e'], 0, 6, 6, 0, 4, 0⟩) ∧
      ∀ operation, Sound ⟨['b', '\n', '\n', 'c', 'd', 'e'], 0, 6, 6, 0, 4, 0⟩ operation →
        ∃ returned delivered after, Performs (fun _ => 'x') ⟨['b', '\n', '\n', 'c', 'd', 'e'], 0, 6, 6, 0, 4, 0⟩
          ⟨operation, returned, delivered⟩ after := by
  have some : 0 < 6 := by decide
  have written : Performs (fun _ => 'x') (eslBufferCreate 4 6 0) ⟨.write ['a', '\n', '\n', 'b'], 4, []⟩
      ⟨['a', '\n', '\n', 'b', '\x00', '\x00'], 0, 4, 4, 0, 4, 0⟩ := rfl
  have packet : Performs (fun _ => 'x') ⟨['a', '\n', '\n', 'b', '\x00', '\x00'], 0, 4, 4, 0, 4, 0⟩
      ⟨.readPacket 9, 3, ['a', '\n', '\n']⟩ ⟨['a', '\n', '\n', 'b', '\x00', '\x00'], 3, 1, 4, 0, 4, 0⟩ := rfl
  have moved : Performs (fun _ => 'x') ⟨['a', '\n', '\n', 'b', '\x00', '\x00'], 3, 1, 4, 0, 4, 0⟩
      ⟨.write ['\n', '\n', 'c', 'd', 'e'], 6, []⟩ ⟨['b', '\n', '\n', 'c', 'd', 'e'], 0, 6, 6, 0, 4, 0⟩ := rfl
  exact runs_as_tape (fun _ => 'x') 4 0 some
    (.next ⟨.inl rfl, written⟩ (.next ⟨.inl (by decide), packet⟩ (.next ⟨.inl rfl, moved⟩ (.done _))))

end CallCenter.Verified.PacketBuffer
