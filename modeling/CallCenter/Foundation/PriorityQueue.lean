import Mathlib.Data.List.Perm.Basic

/-!
# `std::priority_queue`

The binary heap of the standard library, step by step: `push_heap` sifts the new element
up from the end, `pop_heap` walks the hole at the root down to a leaf and sifts the last
element up from there.  The comparison is any Boolean function; nothing below needs it to
be an ordering, so the results hold for a comparison that is not one.  The element in
transit is kept in the hole, which turns every move of the library into a swap.
-/

namespace CallCenter.Foundation

variable {α : Type}

/-- A `priority_queue` whose comparison is a parameter of its operations. -/
structure PriorityQueue (α : Type) where
  heap : Array α
  deriving DecidableEq, Repr

namespace PriorityQueue

def empty : PriorityQueue α := ⟨#[]⟩

/-- `top()`, where the queue has one. -/
def top? (queue : PriorityQueue α) : Option α := queue.heap[0]?

def size (queue : PriorityQueue α) : Nat := queue.heap.size

/-- The elements, in heap order. -/
def elements (queue : PriorityQueue α) : List α := queue.heap.toList

/-- `__push_heap`: while the parent is less than the element in the hole, it moves down. -/
def siftUp (less : α → α → Bool) : Nat → Nat → Array α → Array α
  | 0, _, heap => heap
  | fuel + 1, hole, heap =>
    match heap[(hole - 1) / 2]?, heap[hole]? with
    | some parent, some value =>
      if 0 < hole ∧ less parent value = true then
        siftUp less fuel ((hole - 1) / 2) (heap.swapIfInBounds hole ((hole - 1) / 2))
      else heap
    | _, _ => heap

/-- The child `__adjust_heap` moves into the hole: the second one unless it is less than the
first, the only one where there is no second, none at a leaf. -/
def childAt (less : α → α → Bool) (hole : Nat) (heap : Array α) : Option Nat :=
  match heap[2 * hole + 1]?, heap[2 * hole + 2]? with
  | some first, some second => some (if less second first then 2 * hole + 1 else 2 * hole + 2)
  | some _, none => some (2 * hole + 1)
  | none, _ => none

/-- The loop of `__adjust_heap`: the hole goes down to a leaf; the result says where it ends. -/
def sinkHole (less : α → α → Bool) : Nat → Nat → Array α → Nat × Array α
  | 0, hole, heap => (hole, heap)
  | fuel + 1, hole, heap =>
    match childAt less hole heap with
    | none => (hole, heap)
    | some child => sinkHole less fuel child (heap.swapIfInBounds hole child)

/-- `push`: `push_back`, then `push_heap`. -/
def push (less : α → α → Bool) (queue : PriorityQueue α) (value : α) : PriorityQueue α :=
  ⟨siftUp less queue.heap.size queue.heap.size (queue.heap.push value)⟩

/-- `pop`: `pop_heap`, then `pop_back`. -/
def pop (less : α → α → Bool) (queue : PriorityQueue α) : PriorityQueue α :=
  let moved := (queue.heap.swapIfInBounds 0 (queue.heap.size - 1)).pop
  let sunk := sinkHole less moved.size 0 moved
  ⟨siftUp less moved.size sunk.1 sunk.2⟩

/-! ## What the operations keep -/

theorem swapIfInBounds_perm (heap : Array α) (i j : Nat) :
    (heap.swapIfInBounds i j).toList.Perm heap.toList := by
  rw [Array.swapIfInBounds_def]
  split
  · split
    · exact (Array.swap_perm _ _).toList
    · exact .refl _
  · exact .refl _

theorem siftUp_perm (less : α → α → Bool) (fuel hole : Nat) (heap : Array α) :
    (siftUp less fuel hole heap).toList.Perm heap.toList := by
  fun_induction siftUp less fuel hole heap with
  | case2 fuel hole heap parent value _ _ _ inductionHypothesis =>
    exact inductionHypothesis.trans (swapIfInBounds_perm _ _ _)
  | _ => exact .refl _

theorem sinkHole_perm (less : α → α → Bool) (fuel hole : Nat) (heap : Array α) :
    (sinkHole less fuel hole heap).2.toList.Perm heap.toList := by
  fun_induction sinkHole less fuel hole heap with
  | case3 fuel hole heap child _ inductionHypothesis =>
    exact inductionHypothesis.trans (swapIfInBounds_perm _ _ _)
  | _ => exact .refl _

/-- `push` adds exactly the element it is given. -/
theorem push_perm (less : α → α → Bool) (queue : PriorityQueue α) (value : α) :
    (queue.push less value).elements.Perm (value :: queue.elements) := by
  refine (siftUp_perm less _ _ _).trans ?_
  simp only [Array.toList_push, elements]
  exact List.perm_append_singleton value queue.heap.toList

/-- Swapping the root with the last element and dropping the end removes the root. -/
theorem root_cons_pop_perm {heap : Array α} {root : α} (atRoot : heap[0]? = some root) :
    (root :: (heap.swapIfInBounds 0 (heap.size - 1)).pop.toList).Perm heap.toList := by
  have nonempty : 0 < heap.size := by
    by_contra empty
    simp [Array.getElem?_eq_none (Nat.le_of_not_lt empty)] at atRoot
  have swapped := swapIfInBounds_perm heap 0 (heap.size - 1)
  have size : (heap.swapIfInBounds 0 (heap.size - 1)).size = heap.size := Array.size_swapIfInBounds
  have last : (heap.swapIfInBounds 0 (heap.size - 1)).toList.getLast? = some root := by
    rw [Array.getLast?_toList, Array.back?_eq_getElem?, size, Array.getElem?_eq_getElem (by omega),
      Array.getElem_swapIfInBounds_right nonempty]
    rw [Array.getElem?_eq_getElem nonempty] at atRoot
    exact atRoot
  have split := List.dropLast_append_getLast? root last
  rw [Array.toList_pop]
  refine .trans ?_ swapped
  conv_rhs => rw [← split]
  exact (List.perm_append_singleton root _).symm

/-- `pop` removes exactly the element `top` shows. -/
theorem top_cons_pop_perm (less : α → α → Bool) {queue : PriorityQueue α} {root : α}
    (atTop : queue.top? = some root) :
    (root :: (queue.pop less).elements).Perm queue.elements := by
  refine .trans (.cons root ?_) (root_cons_pop_perm atTop)
  exact (siftUp_perm less _ _ _).trans (sinkHole_perm less _ _ _)

theorem top?_mem {queue : PriorityQueue α} {root : α} (atTop : queue.top? = some root) :
    root ∈ queue.elements :=
  (top_cons_pop_perm (fun _ _ => false) atTop).subset List.mem_cons_self

end PriorityQueue

end CallCenter.Foundation
