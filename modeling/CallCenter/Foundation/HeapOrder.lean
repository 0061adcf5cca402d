import CallCenter.Foundation.PriorityQueue

/-!
# Heap order

With a comparison that is a strict weak order the operations of `PriorityQueue` keep the heap
order, and the top is an element that is less than no other.  `push_congr` and `pop_congr` carry
this over to a comparison that only agrees with such an order on the elements in the queue.
-/

namespace CallCenter.Foundation.PriorityQueue

variable {α : Type}

/-- What `std::priority_queue` asks of its comparison: a strict weak order. -/
structure StrictWeak (less : α → α → Bool) : Prop where
  asymm : ∀ {a b}, less a b = true → less b a = false
  trans : ∀ {a b c}, less a b = false → less b c = false → less a c = false

theorem StrictWeak.irrefl {less : α → α → Bool} (strict : StrictWeak less) (a : α) : less a a = false := by
  cases self : less a a with
  | false => rfl
  | true => exact self.symm.trans (strict.asymm self)

/-- Two values neither of which is less than the other. -/
def Incomparable (less : α → α → Bool) (a b : α) : Prop := less a b = false ∧ less b a = false

/-- The axioms of a strict weak order at three values, as the standard words them. -/
structure StrictWeakAt (less : α → α → Bool) (a b c : α) : Prop where
  irrefl : less a a = false
  asymm : less a b = true → less b a = false
  trans : less a b = true → less b c = true → less a c = true
  incomparable : Incomparable less a b → Incomparable less b c → Incomparable less a c

/-- The two axioms of `StrictWeak` are the standard's four. -/
theorem strictWeak_iff {less : α → α → Bool} : StrictWeak less ↔ ∀ a b c, StrictWeakAt less a b c := by
  constructor
  · intro strict a b c
    refine ⟨strict.irrefl a, strict.asymm, ?trans, ?incomparable⟩
    case trans =>
      intro ab bc
      cases ac : less a c with
      | true => rfl
      | false => exact ((strict.trans ac (strict.asymm bc)).symm.trans ab)
    case incomparable =>
      intro ab bc
      exact ⟨strict.trans ab.1 bc.1, strict.trans bc.2 ab.2⟩
  · intro axioms
    refine ⟨fun {a b} => (axioms a b a).asymm, ?_⟩
    intro a b c ab bc
    -- If `a` were less than `c`, then `b` would be incomparable to both, and so would they.
    cases ac : less a c with
    | false => rfl
    | true =>
      have ba : less b a = false := Bool.eq_false_iff.mpr fun ba =>
        absurd ((axioms b a c).trans ba ac) (by simp [bc])
      have cb : less c b = false := Bool.eq_false_iff.mpr fun cb =>
        absurd ((axioms a c b).trans ac cb) (by simp [ab])
      exact ac.symm.trans ((axioms a b c).incomparable ⟨ab, ba⟩ ⟨bc, cb⟩).1

/-- The parent of `child` is not less than it. -/
def EdgeOrdered (less : α → α → Bool) (heap : Array α) (child : Nat) : Prop :=
  ∀ a b, heap[(child - 1) / 2]? = some a → heap[child]? = some b → less a b = false

/-- No parent is less than a child of it. -/
def HeapOrdered (less : α → α → Bool) (heap : Array α) : Prop :=
  ∀ child, 0 < child → EdgeOrdered less heap child

/-- The parent of `hole` is not less than the children of `hole`. -/
def Bridged (less : α → α → Bool) (heap : Array α) (hole : Nat) : Prop :=
  ∀ child, 0 < hole → 0 < child → (child - 1) / 2 = hole →
    ∀ a b, heap[(hole - 1) / 2]? = some a → heap[child]? = some b → less a b = false

/-- Only the edge into `hole` may be out of order: the value there is on its way up. -/
structure Rising (less : α → α → Bool) (heap : Array α) (hole : Nat) : Prop where
  edges : ∀ child, 0 < child → child ≠ hole → EdgeOrdered less heap child
  bridged : Bridged less heap hole

/-- Only the edges at `hole` may be out of order: the value there is on its way down. -/
structure Sinking (less : α → α → Bool) (heap : Array α) (hole : Nat) : Prop where
  edges : ∀ child, 0 < child → child ≠ hole → (child - 1) / 2 ≠ hole → EdgeOrdered less heap child
  bridged : Bridged less heap hole

theorem getElem?_swapIfInBounds {heap : Array α} {i j : Nat} {a b : α} (atI : heap[i]? = some a)
    (atJ : heap[j]? = some b) (k : Nat) :
    (heap.swapIfInBounds i j)[k]? = if k = i then some b else if k = j then some a else heap[k]? := by
  obtain ⟨inI, rfl⟩ := Array.getElem?_eq_some_iff.mp atI
  obtain ⟨inJ, rfl⟩ := Array.getElem?_eq_some_iff.mp atJ
  rw [Array.swapIfInBounds_def, dif_pos inI, dif_pos inJ, Array.getElem?_swap]
  by_cases first : k = i
  · by_cases second : k = j <;> grind
  · by_cases second : k = j <;> grind

/-- A heap whose only doubtful edge is in order. -/
theorem Rising.heapOrdered {less : α → α → Bool} {heap : Array α} {hole : Nat} (rising : Rising less heap hole)
    (last : 0 < hole → EdgeOrdered less heap hole) : HeapOrdered less heap := by
  intro child positive
  by_cases isHole : child = hole
  · subst isHole
    exact last positive
  · exact rising.edges child positive isHole

/-- At a leaf no edge goes out, so the value may rise from there. -/
theorem Sinking.rising {less : α → α → Bool} {heap : Array α} {hole : Nat} (sinking : Sinking less heap hole)
    (leaf : heap.size ≤ 2 * hole + 1) : Rising less heap hole := by
  refine ⟨?_, sinking.bridged⟩
  intro child positive other a b atA atB
  by_cases below : (child - 1) / 2 = hole
  · rw [Array.getElem?_eq_none (by omega)] at atB
    contradiction
  · exact sinking.edges child positive other below a b atA atB

section Ordered

variable {less : α → α → Bool} (strict : StrictWeak less)
include strict

/-- One move of a rising value: it changes places with its parent. -/
theorem Rising.swap {heap : Array α} {hole : Nat} {parent value : α} (rising : Rising less heap hole)
    (above : 0 < hole) (atParent : heap[(hole - 1) / 2]? = some parent) (atHole : heap[hole]? = some value)
    (smaller : less parent value = true) :
    Rising less (heap.swapIfInBounds hole ((hole - 1) / 2)) ((hole - 1) / 2) := by
  have lookup := getElem?_swapIfInBounds atHole atParent
  have notSmaller := strict.asymm smaller
  -- the edges out of the parent's place
  have besides : ∀ child b, 0 < child → child ≠ hole → (child - 1) / 2 = (hole - 1) / 2 →
      heap[child]? = some b → less parent b = false := by
    intro child b positive other sibling atChild
    exact rising.edges child positive other parent b (sibling ▸ atParent) atChild
  refine ⟨?edges, ?bridged⟩
  case edges =>
    intro child positive other a b atA atB
    rw [lookup] at atA atB
    by_cases isHole : child = hole
    · -- the value stands where the parent was, the parent where the value was
      subst isHole
      have apart : (child - 1) / 2 ≠ child := by omega
      simp only [apart, if_false, if_true, Option.some.injEq] at atA atB
      rw [← atA, ← atB]
      exact notSmaller
    -- a child of the old place now hangs under the parent, which `bridged` compared it with
    · simp only [isHole, other, if_false] at atB
      by_cases below : (child - 1) / 2 = hole
      · simp only [below, if_true, Option.some.injEq] at atA
        rw [← atA]
        exact rising.bridged child above positive below parent b atParent atB
      · by_cases sibling : (child - 1) / 2 = (hole - 1) / 2
        · rw [if_neg below, if_pos sibling, Option.some.injEq] at atA
          rw [← atA]
          exact strict.trans notSmaller (besides child b positive isHole sibling atB)
        · simp only [below, sibling, if_false] at atA
          exact rising.edges child positive isHole a b atA atB
  -- the places above the parent are as they were, those below it are bounded by the parent
  case bridged =>
    intro child inner positive below a b atA atB
    rw [lookup] at atA atB
    have grandparent : ((hole - 1) / 2 - 1) / 2 ≠ hole ∧ ((hole - 1) / 2 - 1) / 2 ≠ (hole - 1) / 2 := by omega
    simp only [grandparent.1, grandparent.2, if_false] at atA
    have upper := rising.edges ((hole - 1) / 2) inner (by omega) a parent atA atParent
    by_cases isHole : child = hole
    · simp only [isHole, if_true, Option.some.injEq] at atB
      rw [← atB]
      exact upper
    · have other : child ≠ (hole - 1) / 2 := by omega
      simp only [isHole, other, if_false] at atB
      exact strict.trans upper (besides child b positive isHole below atB)

/-- A rising value ends where the heap is in order. -/
theorem heapOrdered_siftUp {fuel hole : Nat} {heap : Array α} (enough : hole ≤ fuel)
    (rising : Rising less heap hole) : HeapOrdered less (siftUp less fuel hole heap) := by
  induction fuel generalizing hole heap with
  | zero =>
    refine rising.heapOrdered ?_
    intro positive
    omega
  | succ fuel inductionHypothesis =>
    rw [siftUp]
    split
    · rename_i parent value atParent atHole
      split
      · rename_i moves
        have higher : (hole - 1) / 2 ≤ fuel := by omega
        exact inductionHypothesis higher (rising.swap strict moves.1 atParent atHole moves.2)
      · rename_i stays
        refine rising.heapOrdered ?_
        intro positive a b atA atB
        rw [atParent, Option.some.injEq] at atA
        rw [atHole, Option.some.injEq] at atB
        subst atA atB
        simpa [positive] using stays
    · rename_i outside
      refine rising.heapOrdered ?_
      intro positive a b atA atB
      exact absurd atB (outside a b atA)

/-- The chosen child is not less than the other one. -/
theorem childAt_eq_some {hole child : Nat} {heap : Array α} (chosen : childAt less hole heap = some child) :
    0 < child ∧ (child - 1) / 2 = hole ∧ ∃ a, heap[child]? = some a ∧
      ∀ other b, 0 < other → (other - 1) / 2 = hole → heap[other]? = some b → less a b = false := by
  have children : ∀ other, 0 < other → (other - 1) / 2 = hole →
      other = 2 * hole + 1 ∨ other = 2 * hole + 2 := by
    intro other positive below
    omega
  -- two children, of which the larger is chosen, or the left one alone
  simp only [childAt] at chosen
  split at chosen
  · rename_i first second atFirst atSecond
    split at chosen
    · rename_i smaller
      obtain rfl := Option.some.inj chosen
      refine ⟨by omega, by omega, first, atFirst, ?_⟩
      intro other b positive below atOther
      cases children other positive below with
      | inl same =>
        subst same
        rw [atFirst, Option.some.injEq] at atOther
        exact atOther ▸ strict.irrefl first
      | inr same =>
        subst same
        rw [atSecond, Option.some.injEq] at atOther
        exact atOther ▸ strict.asymm smaller
    · rename_i notSmaller
      obtain rfl := Option.some.inj chosen
      refine ⟨by omega, by omega, second, atSecond, ?_⟩
      intro other b positive below atOther
      cases children other positive below with
      | inl same =>
        subst same
        rw [atFirst, Option.some.injEq] at atOther
        subst atOther
        simpa using notSmaller
      | inr same =>
        subst same
        rw [atSecond, Option.some.injEq] at atOther
        exact atOther ▸ strict.irrefl second
  · rename_i first atFirst atSecond
    obtain rfl := Option.some.inj chosen
    refine ⟨by omega, by omega, first, atFirst, ?_⟩
    intro other b positive below atOther
    cases children other positive below with
    | inl same =>
      subst same
      rw [atFirst, Option.some.injEq] at atOther
      exact atOther ▸ strict.irrefl first
    | inr same =>
      subst same
      rw [atSecond] at atOther
      contradiction
  · contradiction

/-- One move of the hole downwards: the chosen child takes its place. -/
theorem Sinking.swap {heap : Array α} {hole child : Nat} {value : α} (sinking : Sinking less heap hole)
    (atHole : heap[hole]? = some value) (chosen : childAt less hole heap = some child) :
    Sinking less (heap.swapIfInBounds hole child) child := by
  obtain ⟨positive, below, larger, atChild, largest⟩ := childAt_eq_some strict chosen
  have lookup := getElem?_swapIfInBounds atHole atChild
  refine ⟨?edges, ?bridged⟩
  case edges =>
    intro edge positiveEdge other notBelow a b atA atB
    rw [lookup] at atA atB
    by_cases isHole : edge = hole
    · -- the larger child comes to stand below the parent of the hole
      subst isHole
      have apart : (edge - 1) / 2 ≠ edge := by omega
      simp only [apart, notBelow, if_false, if_true, Option.some.injEq] at atA atB
      rw [← atB]
      exact sinking.bridged child positiveEdge positive below a larger atA atChild
    · simp only [isHole, other, if_false] at atB
      by_cases sibling : (edge - 1) / 2 = hole
      · simp only [sibling, if_true, Option.some.injEq] at atA
        rw [← atA]
        exact largest edge b positiveEdge sibling atB
      · simp only [sibling, notBelow, if_false] at atA
        exact sinking.edges edge positiveEdge isHole sibling a b atA atB
  case bridged =>
    intro edge _ positiveEdge belowChild a b atA atB
    rw [lookup] at atA atB
    -- below the chosen child nothing has moved
    have away : edge ≠ hole ∧ edge ≠ child := by omega
    simp only [below, if_true, Option.some.injEq] at atA
    simp only [away.1, away.2, if_false] at atB
    rw [← atA]
    refine sinking.edges edge positiveEdge away.1 (by omega) larger b ?_ atB
    rw [belowChild]
    exact atChild

/-- The hole ends at a leaf, from where the value there may rise. -/
theorem rising_sinkHole {fuel hole : Nat} {heap : Array α} (enough : heap.size ≤ hole + fuel)
    (sinking : Sinking less heap hole) :
    Rising less (sinkHole less fuel hole heap).2 (sinkHole less fuel hole heap).1 := by
  induction fuel generalizing hole heap with
  | zero =>
    have leaf : heap.size ≤ 2 * hole + 1 := by omega
    exact sinking.rising leaf
  | succ fuel inductionHypothesis =>
    rw [sinkHole]
    split
    · rename_i none
      refine sinking.rising ?_
      simp only [childAt] at none
      split at none
      · split at none <;> contradiction
      · contradiction
      · rename_i noFirst
        exact Array.getElem?_eq_none_iff.mp noFirst
    · rename_i child chosen
      obtain ⟨positive, below, larger, atChild, _⟩ := childAt_eq_some strict chosen
      have inside : child < heap.size := (Array.getElem?_eq_some_iff.mp atChild).1
      have atHole : heap[hole]? = some heap[hole] := Array.getElem?_eq_getElem (by omega)
      refine inductionHypothesis ?_ (sinking.swap strict atHole chosen)
      rw [Array.size_swapIfInBounds]
      omega

/-- The hole never leaves the heap. -/
theorem sinkHole_le {fuel hole : Nat} {heap : Array α} (inside : hole ≤ heap.size) :
    (sinkHole less fuel hole heap).1 ≤ heap.size := by
  induction fuel generalizing hole heap with
  | zero => exact inside
  | succ fuel inductionHypothesis =>
    rw [sinkHole]
    split
    · exact inside
    · rename_i child chosen
      obtain ⟨_, _, larger, atChild, _⟩ := childAt_eq_some strict chosen
      have next := @inductionHypothesis child (heap.swapIfInBounds hole child)
      rw [Array.size_swapIfInBounds] at next
      exact next (Nat.le_of_lt (Array.getElem?_eq_some_iff.mp atChild).1)

/-! ## The operations -/

theorem heapOrdered_push {queue : PriorityQueue α} (value : α) (ordered : HeapOrdered less queue.heap) :
    HeapOrdered less (queue.push less value).heap := by
  have inside : ∀ place, place ≠ queue.heap.size → (queue.heap.push value)[place]? = queue.heap[place]? := by
    intro place other
    rw [Array.getElem?_push]
    exact if_neg other
  refine heapOrdered_siftUp strict (Nat.le_refl _) ⟨?edges, ?bridged⟩
  case edges =>
    intro child positive other a b atA atB
    rw [inside child other] at atB
    have childInside : child < queue.heap.size := (Array.getElem?_eq_some_iff.mp atB).1
    rw [inside _ (by omega)] at atA
    exact ordered child positive a b atA atB
  case bridged =>
    intro child _ positive below a b _ atB
    have outside : (queue.heap.push value).size ≤ child := by
      rw [Array.size_push]
      omega
    rw [Array.getElem?_eq_none outside] at atB
    contradiction

theorem heapOrdered_pop {queue : PriorityQueue α} (ordered : HeapOrdered less queue.heap) :
    HeapOrdered less (queue.pop less).heap := by
  have size : (queue.heap.swapIfInBounds 0 (queue.heap.size - 1)).pop.size = queue.heap.size - 1 := by
    rw [Array.size_pop, Array.size_swapIfInBounds]
  -- away from the root nothing moved
  have inside : ∀ place a, place ≠ 0 →
      (queue.heap.swapIfInBounds 0 (queue.heap.size - 1)).pop[place]? = some a →
        queue.heap[place]? = some a := by
    intro place a other atPlace
    have bound : place < queue.heap.size - 1 := size ▸ (Array.getElem?_eq_some_iff.mp atPlace).1
    have atRoot : queue.heap[0]? = some queue.heap[0] := Array.getElem?_eq_getElem (by omega)
    have atLast : queue.heap[queue.heap.size - 1]? = some queue.heap[queue.heap.size - 1] :=
      Array.getElem?_eq_getElem (by omega)
    rw [Array.getElem?_pop, Array.size_swapIfInBounds, if_pos bound,
      getElem?_swapIfInBounds atRoot atLast, if_neg other, if_neg (by omega)] at atPlace
    exact atPlace
  have sinking : Sinking less (queue.heap.swapIfInBounds 0 (queue.heap.size - 1)).pop 0 := by
    refine ⟨?edges, ?bridged⟩
    case edges =>
      intro child positive other notBelow a b atA atB
      exact ordered child positive a b (inside _ a notBelow atA) (inside child b other atB)
    case bridged =>
      intro child positive
      omega
  exact heapOrdered_siftUp strict (sinkHole_le strict (Nat.zero_le _))
    (rising_sinkHole strict (by omega) sinking)

/-- The top of an ordered heap is less than no element. -/
theorem top_largest {queue : PriorityQueue α} (ordered : HeapOrdered less queue.heap) {top : α}
    (atTop : queue.top? = some top) : ∀ elem ∈ queue.elements, less top elem = false := by
  have everywhere : ∀ (place : Nat) (elem : α), queue.heap[place]? = some elem → less top elem = false := by
    intro place
    induction place using Nat.strongRecOn with
    | _ place inductionHypothesis =>
      intro elem atPlace
      by_cases root : place = 0
      · subst root
        rw [top?, atPlace, Option.some.injEq] at atTop
        exact atTop ▸ strict.irrefl elem
      · have inside := (Array.getElem?_eq_some_iff.mp atPlace).1
        have higher : (place - 1) / 2 < place := by omega
        have atParent : queue.heap[(place - 1) / 2]? = some queue.heap[(place - 1) / 2] :=
          Array.getElem?_eq_getElem (by omega)
        have parentBelow := inductionHypothesis _ higher _ atParent
        exact strict.trans parentBelow (ordered place (by omega) _ elem atParent atPlace)
  intro elem member
  obtain ⟨place, atPlace⟩ := List.getElem?_of_mem member
  exact everywhere place elem (by simpa [elements] using atPlace)

end Ordered

/-! ## Comparisons that agree on the elements -/

/-- Two comparisons order a pair of elements alike. -/
def Agree (first second : α → α → Bool) (a b : α) : Prop :=
  first a b = second a b ∧ first b a = second b a

section Congruence

variable {first second : α → α → Bool}

theorem agree_symm {a b : α} (agree : Agree first second a b) : Agree first second b a := ⟨agree.2, agree.1⟩

/-- Agreement at different places survives every reordering. -/
theorem agree_of_perm {before after : List α} (agree : before.Pairwise (Agree first second))
    (moved : after.Perm before) : after.Pairwise (Agree first second) :=
  (moved.pairwise_iff agree_symm).mpr agree

theorem agree_at {heap : Array α} (agree : heap.toList.Pairwise (Agree first second)) {i j : Nat}
    (apart : i ≠ j) {a b : α} (atI : heap[i]? = some a) (atJ : heap[j]? = some b) : first a b = second a b := by
  obtain ⟨inI, rfl⟩ := Array.getElem?_eq_some_iff.mp atI
  obtain ⟨inJ, rfl⟩ := Array.getElem?_eq_some_iff.mp atJ
  have pairs := List.pairwise_iff_getElem.mp agree
  cases Nat.lt_or_gt_of_ne apart with
  | inl before => exact (pairs i j (by simpa using inI) (by simpa using inJ) before).1
  | inr before => exact (pairs j i (by simpa using inJ) (by simpa using inI) before).2

theorem siftUp_congr {fuel hole : Nat} {heap : Array α} (agree : heap.toList.Pairwise (Agree first second)) :
    siftUp first fuel hole heap = siftUp second fuel hole heap := by
  induction fuel generalizing hole heap with
  | zero => rfl
  | succ fuel inductionHypothesis =>
    rw [siftUp, siftUp]
    split
    · rename_i parent value atParent atHole
      by_cases positive : 0 < hole
      · have apart : (hole - 1) / 2 ≠ hole := by omega
        rw [agree_at agree apart atParent atHole]
        split
        · exact inductionHypothesis (agree_of_perm agree (swapIfInBounds_perm _ _ _))
        · rfl
      · simp [positive]
    · rfl

theorem childAt_congr {hole : Nat} {heap : Array α} (agree : heap.toList.Pairwise (Agree first second)) :
    childAt first hole heap = childAt second hole heap := by
  simp only [childAt]
  split
  · rename_i one two atOne atTwo
    rw [agree_at agree (by omega) atTwo atOne]
  · rfl
  · rfl

theorem sinkHole_congr {fuel hole : Nat} {heap : Array α} (agree : heap.toList.Pairwise (Agree first second)) :
    sinkHole first fuel hole heap = sinkHole second fuel hole heap := by
  induction fuel generalizing hole heap with
  | zero => rfl
  | succ fuel inductionHypothesis =>
    rw [sinkHole, sinkHole, childAt_congr agree]
    split
    · rfl
    · exact inductionHypothesis (agree_of_perm agree (swapIfInBounds_perm _ _ _))

/-- `push` does the same under comparisons that agree on the elements and the new one. -/
theorem push_congr {queue : PriorityQueue α} {value : α}
    (agree : (value :: queue.elements).Pairwise (Agree first second)) :
    queue.push first value = queue.push second value := by
  have moved : (queue.heap.push value).toList.Perm (value :: queue.elements) := by
    rw [Array.toList_push]
    exact List.perm_append_singleton value queue.heap.toList
  rw [push, push, siftUp_congr (agree_of_perm agree moved)]

/-- `pop` does the same under comparisons that agree on the elements. -/
theorem pop_congr {queue : PriorityQueue α} (agree : queue.elements.Pairwise (Agree first second)) :
    queue.pop first = queue.pop second := by
  have agreeMoved : (queue.heap.swapIfInBounds 0 (queue.heap.size - 1)).pop.toList.Pairwise
      (Agree first second) := by
    rw [Array.toList_pop]
    exact (agree_of_perm agree (swapIfInBounds_perm _ _ _)).sublist (List.dropLast_sublist _)
  simp only [pop]
  rw [sinkHole_congr agreeMoved, siftUp_congr (agree_of_perm agreeMoved (sinkHole_perm _ _ _ _))]

end Congruence

end CallCenter.Foundation.PriorityQueue
