import Mathlib.Data.List.Basic

/-!
# Texts with escapes

A mark takes the characters behind it with it, a fixed number of them; every other character stands
alone.  A text falls into such pieces in one way, and whole pieces put together fall apart again
into themselves.
-/

namespace CallCenter.Foundation.Escapes

universe u

/-- A piece of a text: a character that stands alone, or what is behind a mark. -/
inductive Piece (α : Type u) where
  | plain (c : α)
  | escape (behind : List α)
  deriving DecidableEq

variable {α : Type u}

/-- The text of a piece. -/
def Piece.text (mark : α) : Piece α → List α
  | .plain c => [c]
  | .escape behind => mark :: behind

/-- A piece that is as long as it should be. -/
def Piece.Whole (mark : α) (count : Nat) : Piece α → Prop
  | .plain c => c ≠ mark
  | .escape behind => behind.length = count

variable [DecidableEq α] {mark : α} {count : Nat}

/-- The pieces behind the next `taken` characters, which belong to a mark before them. -/
def piecesFrom (mark : α) (count : Nat) : Nat → List α → List (Piece α)
  | _, [] => []
  | taken + 1, _ :: rest => piecesFrom mark count taken rest
  | 0, c :: rest =>
    if c = mark then .escape (rest.take count) :: piecesFrom mark count count rest
    else .plain c :: piecesFrom mark count 0 rest

/-- The pieces of a text; at its end a mark may find less than it takes. -/
def pieces (mark : α) (count : Nat) (text : List α) : List (Piece α) := piecesFrom mark count 0 text

theorem piecesFrom_eq (taken : Nat) (text : List α) :
    piecesFrom mark count taken text = pieces mark count (text.drop taken) := by
  induction taken generalizing text with
  | zero => rfl
  | succ taken inductionHypothesis =>
    cases text with
    | nil => rfl
    | cons c rest => exact inductionHypothesis rest

@[simp] theorem pieces_nil : pieces mark count [] = [] := rfl

theorem pieces_mark (rest : List α) :
    pieces mark count (mark :: rest) = .escape (rest.take count) :: pieces mark count (rest.drop count) := by
  rw [pieces, piecesFrom, if_pos rfl, piecesFrom_eq]

theorem pieces_plain {c : α} (other : c ≠ mark) (rest : List α) :
    pieces mark count (c :: rest) = .plain c :: pieces mark count rest := by
  rw [pieces, piecesFrom, if_neg other, pieces]

/-- Whole pieces are found again. -/
theorem pieces_text {parts : List (Piece α)} (whole : ∀ part ∈ parts, part.Whole mark count) :
    pieces mark count (parts.flatMap (Piece.text mark)) = parts := by
  induction parts with
  | nil => rfl
  | cons part parts inductionHypothesis =>
    have first := whole part List.mem_cons_self
    have others := inductionHypothesis fun other member => whole other (List.mem_cons_of_mem _ member)
    rw [List.flatMap_cons]
    cases part with
    | plain c => rw [Piece.text, List.singleton_append, pieces_plain first, others]
    | escape behind =>
      obtain rfl : behind.length = count := first
      rw [Piece.text, List.cons_append, pieces_mark, List.take_left, List.drop_left, others]

end CallCenter.Foundation.Escapes
