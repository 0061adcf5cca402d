import Mathlib

/-!
# Ordered maps the way `std::map` uses them

`Std.ExtTreeMap` has the lookup, insertion and erasure of `std::map` and lists its
entries in key order.  Two things are added here: `subscript`, the assignment through
`operator[]` that creates a missing entry, and forward iterators.  An iterator is the
key it stands on (`none` at the end), so it survives the insertions of other threads,
as a `std::map` iterator does.
-/

namespace CallCenter.Foundation.OrderedMap

open Std (ExtTreeMap TransOrd LawfulEqOrd)

variable {Key Value : Type} [Ord Key] [TransOrd Key] [LawfulEqOrd Key]

/-- `map[key]` changed by `change`; an entry that is missing is created as `fresh` first. -/
def subscript (map : ExtTreeMap Key Value) (key : Key) (fresh : Value) (change : Value → Value) :
    ExtTreeMap Key Value :=
  map.alter key fun slot => some (change (slot.getD fresh))

theorem getElem?_subscript [DecidableEq Key] (map : ExtTreeMap Key Value) (key asked : Key)
    (fresh : Value) (change : Value → Value) :
    (subscript map key fresh change)[asked]? =
      if key = asked then some (change (map[key]?.getD fresh)) else map[asked]? := by
  simp [subscript, ExtTreeMap.getElem?_alter]

/-- On a key that is present `operator[]` only changes the entry. -/
theorem subscript_of_mem [DecidableEq Key] {map : ExtTreeMap Key Value} {key : Key} {value : Value}
    (present : map[key]? = some value) (fresh : Value) (change : Value → Value) :
    subscript map key fresh change = map.modify key change := by
  apply ExtTreeMap.ext_getElem?
  intro asked
  rw [getElem?_subscript, ExtTreeMap.getElem?_modify]
  by_cases same : key = asked
  · subst same
    simp [present]
  · simp [same]

/-- A change through the reference `operator[]` returned changes what it left there. -/
theorem modify_subscript [DecidableEq Key] (map : ExtTreeMap Key Value) (key : Key) (fresh : Value)
    (first second : Value → Value) :
    (subscript map key fresh first).modify key second =
      subscript map key fresh fun value => second (first value) := by
  apply ExtTreeMap.ext_getElem?
  intro asked
  rw [ExtTreeMap.getElem?_modify]
  by_cases same : key = asked
  · subst same
    simp [getElem?_subscript]
  · simp [getElem?_subscript, same]

theorem modify_of_notMem [DecidableEq Key] {map : ExtTreeMap Key Value} {key : Key} (absent : key ∉ map)
    (change : Value → Value) : map.modify key change = map := by
  apply ExtTreeMap.ext_getElem?
  intro asked
  rw [ExtTreeMap.getElem?_modify]
  by_cases same : key = asked
  · subst same
    simp [ExtTreeMap.getElem?_eq_none absent]
  · simp [same]

/-- An entry that is erased need not have been created. -/
theorem erase_subscript [DecidableEq Key] (map : ExtTreeMap Key Value) (key : Key) (fresh : Value)
    (change : Value → Value) : (subscript map key fresh change).erase key = map.erase key := by
  apply ExtTreeMap.ext_getElem?
  intro asked
  rw [ExtTreeMap.getElem?_erase, ExtTreeMap.getElem?_erase]
  by_cases same : key = asked
  · simp [same]
  · simp [getElem?_subscript, same]

theorem modify_modify [DecidableEq Key] (map : ExtTreeMap Key Value) (key : Key)
    (first second : Value → Value) :
    (map.modify key first).modify key second = map.modify key fun value => second (first value) := by
  apply ExtTreeMap.ext_getElem?
  intro asked
  simp only [ExtTreeMap.getElem?_modify]
  by_cases same : compare key asked = .eq
  · rw [LawfulEqOrd.eq_of_compare same]
    simp [Function.comp_def]
  · simp [same]

theorem mem_toList_iff {map : ExtTreeMap Key Value} {key : Key} {value : Value} :
    (key, value) ∈ map.toList ↔ map[key]? = some value :=
  ExtTreeMap.mem_toList_iff_getElem?_eq_some

theorem mem_keys_of_getElem? {map : ExtTreeMap Key Value} {key : Key} {value : Value}
    (present : map[key]? = some value) : key ∈ map.keys := by
  rw [ExtTreeMap.mem_keys, ExtTreeMap.mem_iff_isSome_getElem?, present]
  rfl

/-- A count over the entries does not fall when every entry counted before has one of its key
counted after. -/
theorem countP_toList_mono {before after : ExtTreeMap Key Value} {p q : Key × Value → Bool}
    (kept : ∀ key value, before[key]? = some value → p (key, value) = true →
      ∃ changed, after[key]? = some changed ∧ q (key, changed) = true) :
    before.toList.countP p ≤ after.toList.countP q := by
  have distinct : ((before.toList.filter p).map Prod.fst).Nodup := by
    have keys : before.toList.map Prod.fst = before.keys := ExtTreeMap.map_fst_toList_eq_keys
    exact (List.filter_sublist.map Prod.fst).nodup (keys ▸ ExtTreeMap.nodup_keys)
  have included : (before.toList.filter p).map Prod.fst ⊆ (after.toList.filter q).map Prod.fst := by
    intro key member
    obtain ⟨⟨_, value⟩, listed, rfl⟩ := List.mem_map.mp member
    obtain ⟨present, counted⟩ := List.mem_filter.mp listed
    obtain ⟨changed, presentAfter, countedAfter⟩ := kept _ value (mem_toList_iff.mp present) counted
    exact List.mem_map.mpr
      ⟨(_, changed), List.mem_filter.mpr ⟨mem_toList_iff.mpr presentAfter, countedAfter⟩, rfl⟩
  have lengths := (List.subperm_of_subset distinct included).length_le
  simpa [List.countP_eq_length_filter] using lengths

/-! ## Filling a map in a loop -/

section Fold

variable {Entry : Type} [DecidableEq Key]

/-- A loop of insertions leaves, at each key, the value of the last entry with that key. -/
theorem getElem?_foldl_insert (key : Entry → Key) (value : Entry → Value) (entries : List Entry)
    (map : ExtTreeMap Key Value) (asked : Key) :
    (entries.foldl (fun filled entry => filled.insert (key entry) (value entry)) map)[asked]? =
      ((entries.filter fun entry => key entry = asked).getLast?.map value).or map[asked]? := by
  induction entries generalizing map with
  | nil => simp
  | cons entry entries inductionHypothesis =>
    rw [List.foldl_cons, inductionHypothesis, List.filter_cons]
    by_cases same : key entry = asked
    · cases last : (entries.filter fun entry => key entry = asked).getLast? <;>
        simp [same, last, List.getLast?_cons]
    · simp [same, ExtTreeMap.getElem?_insert]

/-- Where all entries with a key carry the same value, the loop leaves that value. -/
theorem getElem?_foldl_insert_of_mem {key : Entry → Key} {value : Entry → Value}
    {entries : List Entry} {entry : Entry} (map : ExtTreeMap Key Value) (present : entry ∈ entries)
    (agree : ∀ other ∈ entries, key other = key entry → value other = value entry) :
    (entries.foldl (fun filled entry => filled.insert (key entry) (value entry)) map)[key entry]? =
      some (value entry) := by
  rw [getElem?_foldl_insert]
  have matching : entry ∈ entries.filter fun other => key other = key entry :=
    List.mem_filter.mpr ⟨present, by simp⟩
  cases last : (entries.filter fun other => key other = key entry).getLast? with
  | none =>
    rw [List.getLast?_eq_none_iff.mp last] at matching
    cases matching
  | some other =>
    obtain ⟨member, same⟩ := List.mem_filter.mp (List.mem_of_getLast? last)
    simp [agree other member (by simpa using same)]

omit [DecidableEq Key] in
/-- The keys after a loop of insertions. -/
theorem mem_foldl_insert (key : Entry → Key) (value : Entry → Value) (entries : List Entry)
    (map : ExtTreeMap Key Value) (asked : Key) :
    asked ∈ entries.foldl (fun filled entry => filled.insert (key entry) (value entry)) map ↔
      asked ∈ entries.map key ∨ asked ∈ map := by
  induction entries generalizing map with
  | nil => simp
  | cons entry entries inductionHypothesis =>
    rw [List.foldl_cons, inductionHypothesis, ExtTreeMap.mem_insert, List.map_cons, List.mem_cons,
      LawfulEqOrd.compare_eq_iff_eq]
    constructor
    · rintro (listed | same | present)
      · exact .inl (.inr listed)
      · exact .inl (.inl same.symm)
      · exact .inr present
    · rintro ((same | listed) | present)
      · exact .inr (.inl same.symm)
      · exact .inl listed
      · exact .inr (.inr present)

/-- The entries of a map, inserted into an empty one, make the map again. -/
theorem foldl_insert_toList (map : ExtTreeMap Key Value) :
    map.toList.foldl (fun filled entry => filled.insert entry.1 entry.2) ∅ = map := by
  apply ExtTreeMap.ext_getElem?
  intro asked
  cases found : map[asked]? with
  | some value =>
    have member := mem_toList_iff.mpr found
    refine @getElem?_foldl_insert_of_mem _ _ _ _ _ _ _ Prod.fst Prod.snd _ (asked, value) ∅ member ?_
    intro other present same
    have stored := mem_toList_iff.mp present
    rw [same, found] at stored
    exact (Option.some.inj stored).symm
  | none =>
    refine ExtTreeMap.getElem?_eq_none ?_
    rw [mem_foldl_insert Prod.fst Prod.snd]
    rintro (listed | present)
    · obtain ⟨entry, member, rfl⟩ := List.mem_map.mp listed
      rw [mem_toList_iff.mp member] at found
      cases found
    · exact absurd present ExtTreeMap.not_mem_empty

/-- A loop of `map::insert` keeps what is there and takes the first entry of a new key. -/
theorem getElem?_foldl_insertIfNew (key : Entry → Key) (value : Entry → Value) (entries : List Entry)
    (map : ExtTreeMap Key Value) (asked : Key) :
    (entries.foldl (fun filled entry => filled.insertIfNew (key entry) (value entry)) map)[asked]? =
      map[asked]?.or ((entries.find? fun entry => key entry = asked).map value) := by
  induction entries generalizing map with
  | nil => simp
  | cons entry entries inductionHypothesis =>
    rw [List.foldl_cons, inductionHypothesis, ExtTreeMap.getElem?_insertIfNew]
    by_cases same : key entry = asked
    · subst same
      cases present : map[key entry]? with
      | none =>
        have absent : key entry ∉ map := by simp [ExtTreeMap.mem_iff_isSome_getElem?, present]
        simp [absent]
      | some old =>
        have there : key entry ∈ map := by simp [ExtTreeMap.mem_iff_isSome_getElem?, present]
        simp [there]
    · simp [same]

end Fold

/-- A loop whose body never fails from an entry of the list is a plain fold. -/
theorem foldlM_ok {Failure Entry State : Type} {body : State → Entry → Except Failure State}
    {pureBody : State → Entry → State} {entries : List Entry}
    (fine : ∀ entry ∈ entries, ∀ state, body state entry = .ok (pureBody state entry)) (state : State) :
    entries.foldlM body state = .ok (entries.foldl pureBody state) := by
  induction entries generalizing state with
  | nil => rfl
  | cons entry entries inductionHypothesis =>
    rw [List.foldlM_cons, fine entry List.mem_cons_self]
    exact inductionHypothesis (fun other member => fine other (List.mem_cons_of_mem _ member)) _

/-- What the body of a loop keeps at each entry of the list holds when the loop ends without a failure. -/
theorem foldlM_keeps {Failure Entry State : Type} {body : State → Entry → Except Failure State}
    {entries : List Entry} (holds : State → Prop)
    (kept : ∀ entry ∈ entries, ∀ state next, body state entry = .ok next → holds state → holds next)
    {state last : State} (ended : entries.foldlM body state = .ok last) (base : holds state) : holds last := by
  induction entries generalizing state with
  | nil =>
    obtain rfl := Except.ok.inj ended
    exact base
  | cons entry entries inductionHypothesis =>
    rw [List.foldlM_cons] at ended
    cases first : body state entry with
    | error failure => simp [first, bind, Except.bind] at ended
    | ok next =>
      simp only [first, bind, Except.bind] at ended
      exact inductionHypothesis (fun other member => kept other (List.mem_cons_of_mem _ member)) ended
        (kept entry List.mem_cons_self state next first base)

/-! ## Iterators -/

/-- Where `map.begin()` stands. -/
def begin? (map : ExtTreeMap Key Value) : Option Key := map.keys.head?

/-- Where an iterator on `key` stands after `++`. -/
def next? (map : ExtTreeMap Key Value) (key : Key) : Option Key :=
  map.keys.find? fun later => compare key later == .lt

/-- The iterator has still to visit `key`. -/
def Ahead (key : Key) : Option Key → Prop
  | none => False
  | some stand => (compare stand key).isLE

instance (key : Key) : (stand : Option Key) → Decidable (Ahead key stand)
  | none => isFalse id
  | some stand => inferInstanceAs (Decidable ((compare stand key).isLE = true))

omit [TransOrd Key] [LawfulEqOrd Key] in
/-- An iterator at the end has nothing ahead. -/
@[simp] theorem not_ahead_none (key : Key) : ¬ Ahead key none := id

/-- A scan that starts at `begin()` has every key ahead of it. -/
theorem ahead_begin? {map : ExtTreeMap Key Value} {key : Key} (present : key ∈ map.keys) :
    Ahead key (begin? map) := by
  have sorted := ExtTreeMap.ordered_keys (t := map)
  unfold begin?
  cases shape : map.keys with
  | nil => simp [shape] at present
  | cons first rest =>
    rw [shape] at present sorted
    simp only [List.head?_cons, Ahead]
    rcases List.mem_cons.mp present with same | later
    · subst same
      simp
    · have below := (List.pairwise_cons.mp sorted).1 key later
      simp [below]

/-- `++` passes over no key: what lay strictly ahead of the iterator still lies ahead. -/
theorem ahead_next? {map : ExtTreeMap Key Value} {stand key : Key} (present : key ∈ map.keys)
    (ahead : Ahead key (some stand)) (different : stand ≠ key) : Ahead key (next? map stand) := by
  have below : compare stand key = .lt := by
    simp only [Ahead, Ordering.isLE_iff_eq_lt_or_eq_eq] at ahead
    rcases ahead with lt | eq
    · exact lt
    · exact absurd (LawfulEqOrd.eq_of_compare eq) different
  have sorted := ExtTreeMap.ordered_keys (t := map)
  unfold next?
  cases found : map.keys.find? (fun later => compare stand later == .lt) with
  | none =>
    have nowhere := List.find?_eq_none.mp found key present
    simp [below] at nowhere
  | some first =>
    obtain ⟨_, before, after, shape, skipped⟩ := List.find?_eq_some_iff_append.mp found
    rw [shape] at present sorted
    simp only [Ahead]
    rcases List.mem_append.mp present with earlier | later
    · have missed := skipped key earlier
      simp [below] at missed
    · rcases List.mem_cons.mp later with same | beyond
      · subst same
        simp
      · have ordered := (List.pairwise_append.mp sorted).2.1
        have above := (List.pairwise_cons.mp ordered).1 key beyond
        simp [above]

omit [LawfulEqOrd Key] in
/-- `begin()` and `++` walk through the entries in their order. -/
theorem begin?_eq {map : ExtTreeMap Key Value} : begin? map = map.toList.head?.map Prod.fst := by
  rw [begin?, ← ExtTreeMap.map_fst_toList_eq_keys, List.head?_map]

omit [LawfulEqOrd Key] in
/-- An entry whose key has none below it is the first, and no other entry has that key. -/
theorem toList_eq_cons_of_least {map : ExtTreeMap Key Value} {least : Key} {value : Value}
    (isLeast : ∀ key, compare key least ≠ .lt) (member : (least, value) ∈ map.toList) :
    ∃ rest, map.toList = (least, value) :: rest ∧ ∀ entry ∈ rest, entry.1 ≠ least := by
  have sorted := ExtTreeMap.ordered_keys_toList (t := map)
  obtain ⟨earlier, rest, shape⟩ := List.append_of_mem member
  rw [shape] at sorted
  obtain ⟨_, above, below⟩ := List.pairwise_append.mp sorted
  cases earlier with
  | cons first earlier =>
    exact absurd (below first List.mem_cons_self (least, value) List.mem_cons_self) (isLeast first.1)
  | nil =>
    refine ⟨rest, shape, ?_⟩
    intro entry inRest same
    have less := (List.pairwise_cons.mp above).1 entry inRest
    rw [same] at less
    exact isLeast least less

theorem next?_eq {map : ExtTreeMap Key Value} {earlier later : List (Key × Value)} {key : Key} {value : Value}
    (entries : map.toList = earlier ++ (key, value) :: later) : next? map key = later.head?.map Prod.fst := by
  have keys : map.keys = earlier.map Prod.fst ++ key :: later.map Prod.fst := by
    rw [← ExtTreeMap.map_fst_toList_eq_keys, entries, List.map_append, List.map_cons]
  have sorted := ExtTreeMap.ordered_keys (t := map)
  rw [keys] at sorted
  obtain ⟨_, above, below⟩ := List.pairwise_append.mp sorted
  have passed : (earlier.map Prod.fst).find? (fun other => compare key other == .lt) = none := by
    refine List.find?_eq_none.mpr fun other member => ?_
    have less := below other member key List.mem_cons_self
    simp [Std.OrientedCmp.gt_of_lt less]
  rw [next?, keys, List.find?_append, passed, Option.none_or]
  cases later with
  | nil => simp
  | cons entry later =>
    have next := (List.pairwise_cons.mp above).1 entry.1 (by simp)
    simp [next]

end CallCenter.Foundation.OrderedMap
