import CallCenter.Foundation.HeapOrder
import CallCenter.Foundation.Runs
import CallCenter.Model.AcdQueue
import CallCenter.Model.Ivr
import Mathlib.Data.List.Pairwise

/-!
# The order of service

Which session a `get` hands out.  The comparison of `ivrsession` is the order of service on two
sessions of one class that started at different seconds, and on no other pair: it never puts a
customer of the higher level first, and it holds both ways between sessions of the same second.
While every two sessions in the queue are of the first kind, the heap serves in order.
-/

namespace CallCenter.Verified

open CallCenter.Foundation CallCenter.Model

/-- The queue, with the sessions in it in the order they were put. -/
structure QueueState where
  queue : AcdQueue := .empty
  queued : List IvrSession := []

inductive QueueAction where
  | put (elem : IvrSession)
  | get
  deriving DecidableEq

/-- One operation of the queue; a `get` on the empty queue has to wait. -/
def QueueState.step (state : QueueState) : QueueAction → Option QueueState
  | .put elem => some { queue := state.queue.put elem, queued := state.queued ++ [elem] }
  | .get => state.queue.get.map fun (elem, queue) => { queue, queued := state.queued.erase elem }

/-- What a `get` returns. -/
def QueueState.returns (state : QueueState) : Option IvrSession := state.queue.get.map Prod.fst

/-- The session is the one to serve: a VIP if there is one, the earliest of its class, and the
first that was put among those of its class and second. -/
structure ServedFirst (queued : List IvrSession) (elem : IvrSession) : Prop where
  vip : (∃ session ∈ queued, session.customtype = ivrVip) → elem.customtype = ivrVip
  earliest : ∀ session ∈ queued, session.customtype = elem.customtype →
    elem.startTimestamp ≤ session.startTimestamp
  first : (queued.find? fun session =>
    session.customtype = elem.customtype ∧ session.startTimestamp = elem.startTimestamp) = some elem

/-! ## The comparison -/

/-- Two sessions of one class that started at different seconds. -/
def Apart (a b : IvrSession) : Prop := a.customtype = b.customtype ∧ a.startTimestamp ≠ b.startTimestamp

instance (a b : IvrSession) : Decidable (Apart a b) :=
  inferInstanceAs (Decidable (a.customtype = b.customtype ∧ a.startTimestamp ≠ b.startTimestamp))

theorem apart_symm {a b : IvrSession} (apart : Apart a b) : Apart b a := ⟨apart.1.symm, apart.2.symm⟩

instance : Std.Symm Apart := ⟨fun _ _ apart => apart_symm apart⟩

/-- The order of service within a class, as a comparison for the heap. -/
def later (a b : IvrSession) : Bool := b.startTimestamp < a.startTimestamp

theorem later_strictWeak : PriorityQueue.StrictWeak later where
  asymm := by simp only [later, decide_eq_true_eq, decide_eq_false_iff_not]; omega
  trans := by simp only [later, decide_eq_false_iff_not]; omega

theorem agree_of_apart {a b : IvrSession} (apart : Apart a b) :
    PriorityQueue.Agree IvrSession.less later a b := by
  obtain ⟨sameClass, differ⟩ := apart
  simp only [PriorityQueue.Agree, IvrSession.less, later, sameClass, Int.lt_irrefl, if_false]
  constructor <;> split <;> simp <;> omega

/-- Whether `a`, put before `b`, is to be served before it. -/
def precedes (a b : IvrSession) : Bool :=
  (a.customtype = ivrVip ∧ b.customtype ≠ ivrVip) ∨
    (a.customtype = b.customtype ∧ a.startTimestamp ≤ b.startTimestamp)

/-- The comparison orders two sessions as the service does only when they are `Apart`. -/
theorem less_orders_iff_apart {a b : IvrSession} (levelA : a.customtype = ivrNormail ∨ a.customtype = ivrVip)
    (levelB : b.customtype = ivrNormail ∨ b.customtype = ivrVip) :
    IvrSession.less b a = precedes a b ∧ IvrSession.less a b = !precedes a b ↔ Apart a b := by
  simp only [IvrSession.less, precedes, Apart, ivrNormail, ivrVip] at levelA levelB ⊢
  cases levelA with
  | inl normalA => cases levelB with
    | inl normalB => simp only [normalA, normalB]; grind
    | inr vipB => simp [normalA, vipB]
  | inr vipA => cases levelB with
    | inl normalB => simp [vipA, normalB]
    | inr vipB => simp only [vipA, vipB]; grind

/-! ### The axioms a heap needs -/

/-- One session ahead by class, the other by second. -/
def Opposed (a b : IvrSession) : Prop :=
  (a.customtype < b.customtype ∧ b.startTimestamp < a.startTimestamp) ∨
    (b.customtype < a.customtype ∧ a.startTimestamp < b.startTimestamp)

/-- Two early exits and `return true`: neither key of `a` is below that of `b`. -/
theorem less_iff {a b : IvrSession} :
    IvrSession.less a b = true ↔ b.customtype ≤ a.customtype ∧ b.startTimestamp ≤ a.startTimestamp := by
  simp only [IvrSession.less]
  split
  · simp only [Bool.false_eq_true, false_iff]
    omega
  · split
    · simp only [Bool.false_eq_true, false_iff]
      omega
    · simp only [true_iff]
      omega

theorem less_self (a : IvrSession) : IvrSession.less a a = true :=
  less_iff.mpr ⟨Int.le_refl _, Int.le_refl _⟩

theorem less_trans {a b c : IvrSession} (ab : IvrSession.less a b = true) (bc : IvrSession.less b c = true) :
    IvrSession.less a c = true := by
  rw [less_iff] at ab bc ⊢
  omega

/-- Two sessions are each less than the other exactly when they have the same keys. -/
theorem less_asymm_iff {a b : IvrSession} : (IvrSession.less a b = true → IvrSession.less b a = false) ↔
    ¬ (a.customtype = b.customtype ∧ a.startTimestamp = b.startTimestamp) := by
  rw [← Bool.not_eq_true, less_iff, less_iff]
  omega

theorem incomparable_iff {a b : IvrSession} :
    PriorityQueue.Incomparable IvrSession.less a b ↔ Opposed a b := by
  rw [PriorityQueue.Incomparable, ← Bool.not_eq_true, ← Bool.not_eq_true, less_iff, less_iff, Opposed]
  omega

/-- The comparison is a strict weak order at no three sessions: each is less than itself. -/
theorem less_never_strictWeak (a b c : IvrSession) : ¬ PriorityQueue.StrictWeakAt IvrSession.less a b c := by
  intro axioms
  exact Bool.false_ne_true (axioms.irrefl.symm.trans (less_self a))

/-! ## Runs of the queue -/

/-- A session is put only while those in the queue are of its class and of other seconds. -/
def PutsApart (state : QueueState) : QueueAction → Prop
  | .put elem => ∀ session ∈ state.queued, Apart session elem
  | .get => True

instance (state : QueueState) : (action : QueueAction) → Decidable (PutsApart state action)
  | .put elem => inferInstanceAs (Decidable (∀ session ∈ state.queued, Apart session elem))
  | .get => isTrue trivial

/-- The heap holds the queued sessions, any two of them apart, with the earliest on top. -/
structure InOrder (state : QueueState) : Prop where
  elements : state.queue.elements.Perm state.queued
  apart : state.queued.Pairwise Apart
  ordered : PriorityQueue.HeapOrdered later state.queue.queue.heap

namespace InOrder

variable {state : QueueState}

theorem agree (inOrder : InOrder state) :
    state.queue.elements.Pairwise (PriorityQueue.Agree IvrSession.less later) :=
  ((inOrder.elements.pairwise_iff apart_symm).mpr inOrder.apart).imp agree_of_apart

theorem put (inOrder : InOrder state) {elem : IvrSession}
    (apart : ∀ session ∈ state.queued, Apart session elem) :
    InOrder { queue := state.queue.put elem, queued := state.queued ++ [elem] } where
  elements := (AcdQueue.elements_put elem state.queue).trans <|
    (inOrder.elements.cons elem).trans (List.perm_append_singleton elem state.queued).symm
  apart := by
    rw [List.pairwise_append]
    refine ⟨inOrder.apart, List.pairwise_singleton _ _, ?_⟩
    intro session member new isElem
    rw [List.mem_singleton.mp isElem]
    exact apart session member
  ordered := by
    have withElem : (elem :: state.queue.elements).Pairwise (PriorityQueue.Agree IvrSession.less later) := by
      refine List.pairwise_cons.mpr ⟨?_, inOrder.agree⟩
      intro session member
      exact agree_of_apart (apart_symm (apart session (inOrder.elements.subset member)))
    have same := PriorityQueue.push_congr withElem
    simp only [AcdQueue.put, same]
    exact PriorityQueue.heapOrdered_push later_strictWeak elem inOrder.ordered

/-- What `get` shows is the top of the heap. -/
theorem top_of_get {queue rest : AcdQueue} {elem : IvrSession} (got : queue.get = some (elem, rest)) :
    queue.queue.top? = some elem ∧ rest.queue = queue.queue.pop IvrSession.less := by
  simp only [AcdQueue.get] at got
  split at got
  · contradiction
  · rename_i top atTop
    obtain ⟨rfl, rfl⟩ := Prod.mk.inj (Option.some.inj got)
    exact ⟨atTop, rfl⟩

theorem get (inOrder : InOrder state) {elem : IvrSession} {rest : AcdQueue}
    (got : state.queue.get = some (elem, rest)) : InOrder
    { queue := rest, queued := state.queued.erase elem } where
  elements := (List.cons_perm_iff_perm_erase.mp ((AcdQueue.elements_get got).trans inOrder.elements)).2
  apart := inOrder.apart.sublist List.erase_sublist
  ordered := by
    rw [(top_of_get got).2, PriorityQueue.pop_congr inOrder.agree]
    exact PriorityQueue.heapOrdered_pop later_strictWeak inOrder.ordered

theorem step (inOrder : InOrder state) {after : QueueState} {action : QueueAction}
    (apart : PutsApart state action) (taken : state.step action = some after) : InOrder after := by
  cases action with
  | put elem =>
    obtain rfl := Option.some.inj taken
    exact inOrder.put apart
  | get =>
    obtain ⟨⟨elem, rest⟩, got, rfl⟩ := Option.map_eq_some_iff.mp taken
    exact inOrder.get got

theorem servedFirst (inOrder : InOrder state) {elem : IvrSession} {rest : AcdQueue}
    (got : state.queue.get = some (elem, rest)) : ServedFirst state.queued elem := by
  have queuedElem : elem ∈ state.queued :=
    inOrder.elements.subset ((AcdQueue.elements_get got).subset List.mem_cons_self)
  have others : ∀ session ∈ state.queued, session ≠ elem → Apart session elem := fun session member differ =>
    inOrder.apart.forall member queuedElem differ
  have earliest : ∀ session ∈ state.queued, elem.startTimestamp ≤ session.startTimestamp := by
    intro session member
    have largest := PriorityQueue.top_largest later_strictWeak inOrder.ordered (top_of_get got).1
    have notLater := largest session (inOrder.elements.symm.subset member)
    simpa [later] using notLater
  refine ⟨?vip, fun session member _ => earliest session member, ?first⟩
  case vip =>
    rintro ⟨session, member, isVip⟩
    by_cases same : session = elem
    · exact same ▸ isVip
    · exact (others session member same).1 ▸ isVip
  case first =>
    cases found : state.queued.find? fun session =>
        session.customtype = elem.customtype ∧ session.startTimestamp = elem.startTimestamp with
    | none => simpa using List.find?_eq_none.mp found elem queuedElem
    | some session =>
      have met := List.find?_some found
      simp only [decide_eq_true_eq] at met
      by_cases same : session = elem
      · rw [same]
      · exact absurd met.2 (others session (List.mem_of_find?_eq_some found) same).2

end InOrder

/-- In every run that keeps the queued sessions apart, each `get` returns the session to serve. -/
theorem gets_serve_in_order {actions : List QueueAction} {before : QueueState} {elem : IvrSession}
    (run : Run (Guarded PutsApart (Steps QueueState.step)) {} actions before)
    (returned : before.returns = some elem) : ServedFirst before.queued elem := by
  have start : InOrder {} := by
    refine ⟨.refl _, List.Pairwise.nil, ?_⟩
    intro child _ a b _ atChild
    simp [AcdQueue.empty, PriorityQueue.empty] at atChild
  have inOrder : InOrder before :=
    run.invariant InOrder (fun _ _ _ step inOrder => inOrder.step step.1 step.2) start
  obtain ⟨⟨_, rest⟩, got, rfl⟩ := Option.map_eq_some_iff.mp returned
  exact inOrder.servedFirst got

/-- A customer of the given level who was queued at the given second. -/
def customer (uuid : String) (customtype startTimestamp : Int) : IvrSession where
  companyid := 1
  currentnodeid := ivrAgentFlowIndex
  uuid := uuid
  customtype := customtype
  startTimestamp := startTimestamp
  handle := some .inbound
  newhandle := none

/-- Two customers of one level and second are each less than the other. -/
theorem same_keys_less_both_ways : ¬ ∀ a b c, PriorityQueue.StrictWeakAt IvrSession.less a b c := by
  intro strict
  have axioms := strict (customer "call-1" ivrNormail 1557230400) (customer "call-2" ivrNormail 1557230400)
    (customer "call-3" ivrNormail 1557230403)
  have reversed := axioms.asymm (by decide +kernel)
  revert reversed
  decide +kernel

/-- Two VIPs compare although both are incomparable to a customer of a later second. -/
example : Opposed (customer "call-3" ivrVip 1557230403) (customer "call-2" ivrNormail 1557230407) ∧
    Opposed (customer "call-2" ivrNormail 1557230407) (customer "call-1" ivrVip 1557230400) ∧
    IvrSession.less (customer "call-3" ivrVip 1557230403) (customer "call-1" ivrVip 1557230400) = true :=
  ⟨.inr (by decide +kernel), .inl (by decide +kernel), by decide +kernel⟩

/-- The second of three customers came first. -/
def threeCustomers : List QueueAction :=
  [.put (customer "call-1" ivrNormail 1557230407), .put (customer "call-2" ivrNormail 1557230400),
   .put (customer "call-3" ivrNormail 1557230403)]

theorem gets_serve_in_order_three :
    ServedFirst (finish QueueState.step {} threeCustomers).queued (customer "call-2" ivrNormail 1557230400) :=
  gets_serve_in_order (guardedRun_finish (by decide +kernel)) (by decide +kernel)

/-- What is asked of the queue: in every run each `get` returns the session to serve. -/
def ServesInOrder : Prop :=
  ∀ (actions : List QueueAction) (before : QueueState) (elem : IvrSession),
    Run (Steps QueueState.step) {} actions before → before.returns = some elem → ServedFirst before.queued elem

/-- Of two customers of the same second the one put last is served first. -/
theorem same_second_served_backwards : ¬ ServesInOrder := by
  intro serves
  have served := serves [.put (customer "call-1" ivrNormail 1557230400),
      .put (customer "call-2" ivrNormail 1557230400)]
    _ (customer "call-2" ivrNormail 1557230400) (run_finish (by decide +kernel)) (by decide +kernel)
  have first := served.first
  revert first
  decide +kernel

/-- A VIP customer waits behind the others. -/
example : (finish QueueState.step {} [.put (customer "call-1" ivrNormail 1557230400),
    .put (customer "call-2" ivrVip 1557230401)]).returns = some (customer "call-1" ivrNormail 1557230400) := by
  decide +kernel

end CallCenter.Verified
