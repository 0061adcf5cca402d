import Mathlib.Data.List.Find
import CallCenter.Model.EslHandle

/-!
# Headers of an event

A lookup compares hashes before it compares names.  Every header is hashed by its name, so no lookup
misses a header for its hash, and what is done to one name leaves the others alone.
-/

namespace CallCenter.Verified.EslEvents

open CallCenter.Foundation (Text)
open CallCenter.Model CallCenter.Model.EslEvent

/-! ## Names -/

theorem strcaseeq_iff (first second : Text) :
    strcaseeq first second = true ↔ first.map Char.toLower = second.map Char.toLower := by
  rw [strcaseeq, beq_iff_eq]

theorem strcaseeq_symm {first second : Text} (same : strcaseeq first second = true) :
    strcaseeq second first = true := by
  rw [strcaseeq_iff] at same ⊢
  exact same.symm

theorem strcaseeq_trans {first second third : Text} (same : strcaseeq first second = true)
    (same' : strcaseeq second third = true) : strcaseeq first third = true := by
  rw [strcaseeq_iff] at same same' ⊢
  exact same.trans same'

theorem eslCiHash_eq (key : Text) :
    eslCiHash key = (key.map Char.toLower).foldl (fun hash c => hash * 33 + .ofNat 32 c.toNat) 0 := by
  rw [eslCiHash, List.foldl_map]

/-- Names that differ in their case only have one hash. -/
theorem eslCiHash_congr {first second : Text} (same : strcaseeq first second = true) :
    eslCiHash first = eslCiHash second := by
  rw [eslCiHash_eq, eslCiHash_eq, (strcaseeq_iff _ _).mp same]

/-- Every header is hashed by its name. -/
def Hashed (event : EslEvent) : Prop := ∀ hp ∈ event.headers, hp.hash = eslCiHash hp.name

theorem named_eq {hp : EslHeader} (hashed : hp.hash = eslCiHash hp.name) (name : Text) :
    named name hp = strcaseeq hp.name name := by
  cases same : strcaseeq hp.name name with
  | false => rw [named, same, Bool.and_false]
  | true => rw [named, same, hashed, eslCiHash_congr same, beq_self_eq_true, Bool.or_true, Bool.and_true]

/-- The first header of a name. -/
def header (name : Text) (event : EslEvent) : Option EslHeader :=
  event.headers.find? fun hp => strcaseeq hp.name name

/-- Hashes make no difference to a lookup. -/
theorem find_named {event : EslEvent} (hashed : Hashed event) (name : Text) :
    event.headers.find? (named name) = header name event := by
  rw [header]
  refine List.find?_congr ?_
  intro hp member
  exact named_eq (hashed hp member) name

theorem findIdx_named {event : EslEvent} (hashed : Hashed event) {name : Text} {at_ : Nat}
    (found : event.getHeaderPtr name = some at_) :
    ∃ hp, event.headers[at_]? = some hp ∧ strcaseeq hp.name name = true := by
  rw [getHeaderPtr, List.findIdx?_eq_some_iff_getElem] at found
  obtain ⟨inside, isNamed, -⟩ := found
  refine ⟨event.headers[at_], List.getElem?_eq_getElem inside, ?_⟩
  rw [← named_eq (hashed _ (List.getElem_mem inside))]
  exact isNamed

/-! ## What is done to one name -/

/-- An operation on one name: the headers of the other names, and the body, are as they were. -/
structure Touches (name : Text) (before after : EslEvent) : Prop where
  hashed : Hashed after
  others : ∀ other, strcaseeq name other = false → header other after = header other before
  body : name ≠ "_body".toList → after.body = before.body

theorem Touches.refl {event : EslEvent} (hashed : Hashed event) (name : Text) : Touches name event event :=
  ⟨hashed, fun _ _ => rfl, fun _ => rfl⟩

theorem Touches.trans {name : Text} {first second third : EslEvent} (touches : Touches name first second)
    (touches' : Touches name second third) : Touches name first third where
  hashed := touches'.hashed
  others := fun other apart => (touches'.others other apart).trans (touches.others other apart)
  body := fun noBody => (touches'.body noBody).trans (touches.body noBody)

theorem Touches.foldl {α : Type*} {name : Text} {operation : EslEvent → α → EslEvent}
    (touches : ∀ {event}, Hashed event → ∀ element, Touches name event (operation event element))
    {event : EslEvent} (hashed : Hashed event) (elements : List α) :
    Touches name event (elements.foldl operation event) := by
  induction elements generalizing event with
  | nil => exact .refl hashed name
  | cons element elements inductionHypothesis =>
    have first := touches hashed element
    exact first.trans (inductionHypothesis first.hashed)

theorem delHeaderVal_touches {event : EslEvent} (hashed : Hashed event) (name val : Text) :
    Touches name event (event.delHeaderVal name val) where
  hashed := fun hp member => hashed hp (List.mem_of_mem_filter member)
  others := by
    intro other apart
    rw [header, header, delHeaderVal, List.find?_filter]
    refine List.find?_congr fun hp member => ?_
    cases isOther : strcaseeq hp.name other with
    | false => simp
    | true =>
      have notNamed : named name hp = false := by
        rw [named_eq (hashed hp member)]
        refine Bool.eq_false_iff.mpr fun isNamed => ?_
        rw [strcaseeq_trans (strcaseeq_symm isNamed) isOther] at apart
        cases apart
      rw [notNamed, Bool.false_and]
      rfl
  body := fun _ => rfl

theorem setBody_touches {event : EslEvent} (hashed : Hashed event) (body : Text) :
    Touches "_body".toList event (event.setBody body) :=
  ⟨hashed, fun _ _ => rfl, fun noBody => absurd rfl noBody⟩

theorem link_touches {event : EslEvent} (hashed : Hashed event) (stack : BitVec 2) (hp : EslHeader)
    (isHashed : hp.hash = eslCiHash hp.name) : Touches hp.name event (event.link stack hp) where
  hashed := by
    intro linked member
    rw [link] at member
    dsimp only at member
    split at member
    · exact (List.mem_cons.mp member).elim (fun same => by rw [same]; exact isHashed) (hashed linked)
    · exact (List.mem_append.mp member).elim (hashed linked)
        fun last => by rw [List.mem_singleton.mp last]; exact isHashed
  others := by
    intro other apart
    rw [header, header, link]
    dsimp only
    split
    · rw [List.find?_cons_of_neg (by rw [apart]; decide)]
    · rw [List.find?_append, List.find?_cons_of_neg (by rw [apart]; decide), List.find?_nil, Option.or_none]
  body := fun _ => rfl

/-- A list with one element changed, searched for something that it was not and is not. -/
theorem find?_modify {α : Type*} {p : α → Bool} {f : α → α} {list : List α} {at_ : Nat} {old : α}
    (isOld : list[at_]? = some old) (notOld : p old = false) (notNew : p (f old) = false) :
    (list.modify at_ f).find? p = list.find? p := by
  induction list generalizing at_ with
  | nil => cases isOld
  | cons first rest inductionHypothesis =>
    cases at_ with
    | zero =>
      cases isOld
      rw [List.modify_zero_cons, List.find?_cons_of_neg (by rw [notNew]; decide),
        List.find?_cons_of_neg (by rw [notOld]; decide)]
    | succ at_ =>
      rw [List.getElem?_cons_succ] at isOld
      rw [List.modify_succ_cons, List.find?_cons, List.find?_cons, inductionHypothesis isOld]

theorem modify_touches {event : EslEvent} (hashed : Hashed event) {name : Text} {at_ : Nat}
    (found : event.getHeaderPtr name = some at_) {change : EslHeader → EslHeader}
    (sameName : ∀ hp, (change hp).name = hp.name) (sameHash : ∀ hp, (change hp).hash = hp.hash) :
    Touches name event { event with headers := event.headers.modify at_ change } := by
  obtain ⟨old, isOld, isNamed⟩ := findIdx_named hashed found
  refine ⟨?_, ?_, fun _ => rfl⟩
  · intro hp member
    obtain ⟨index, isHere⟩ := List.mem_iff_getElem?.mp member
    rw [List.getElem?_modify] at isHere
    obtain ⟨before, isBefore, same⟩ := Option.map_eq_some_iff.mp isHere
    have hashedBefore := hashed before (List.mem_of_getElem? isBefore)
    split at same
    · rw [← same, sameHash, sameName, hashedBefore]
    · rw [← same]
      exact hashedBefore
  · intro other apart
    have notOther : strcaseeq old.name other = false := by
      refine Bool.eq_false_iff.mpr fun isOther => ?_
      rw [strcaseeq_trans (strcaseeq_symm isNamed) isOther] at apart
      cases apart
    exact find?_modify isOld notOther (by rw [sameName]; exact notOther)

theorem addIndexed_touches {event : EslEvent} (hashed : Hashed event) (stack : BitVec 2) (name : Text) (index : Int)
    (data : Text) : Touches name event (event.addIndexed stack name index data) := by
  rw [addIndexed]
  split
  · split
    · rename_i at_ found
      refine modify_touches hashed found (fun hp => ?_) (fun hp => ?_)
      all_goals split <;> rfl
    · dsimp only
      split
      · have deleted := delHeaderVal_touches hashed name []
        exact deleted.trans (link_touches deleted.hashed stack ⟨name, _, _, _⟩ rfl)
      · exact link_touches hashed stack ⟨name, _, _, _⟩ rfl
  · exact .refl hashed name

/-- The name of a header, without an index. -/
def baseName (headerName : Text) : Text := headerName.takeWhile (· ≠ '[')

theorem baseName_eq (headerName : Text) (noIndex : headerName.contains '[' = false) :
    baseName headerName = headerName := by
  rw [baseName, List.takeWhile_eq_self_iff]
  intro c member
  rw [List.contains_eq_mem, decide_eq_false_iff_not] at noIndex
  simp only [ne_eq, decide_not, Bool.not_eq_true', decide_eq_false_iff_not]
  rintro rfl
  exact noIndex member

theorem bodyHeader_touches {event : EslEvent} (hashed : Hashed event) (headerName data : Text) :
    Touches headerName event (if headerName = "_body".toList then event.setBody data else event) := by
  split
  · rename_i isBody
    rw [isBody]
    exact setBody_touches hashed data
  · exact .refl hashed headerName

theorem uniqHeader_touches {event : EslEvent} (hashed : Hashed event) (headerName : Text) :
    Touches headerName event (if event.uniqHeaders = true then event.delHeader headerName else event) := by
  split
  · exact delHeaderVal_touches hashed headerName []
  · exact .refl hashed headerName

/-- A header that is added, be it a value, an element or an array, touches its own name only. -/
theorem addHeaderAt_touches (depth : Nat) (stack : BitVec 2) (headerName data : Text) {event : EslEvent}
    (hashed : Hashed event) : Touches (baseName headerName) event (event.addHeaderAt depth stack headerName data) := by
  have body {event : EslEvent} (hashed : Hashed event) (data : Text) := bodyHeader_touches hashed headerName data
  have uniq {event : EslEvent} (hashed : Hashed event) := uniqHeader_touches hashed headerName
  fun_induction addHeaderAt depth stack headerName data event with
  | case1 _ stack data event set indexed name =>
    have noBody : headerName ≠ "_body".toList := by
      rintro rfl
      exact absurd indexed (by decide)
    simp only [set, if_neg noBody]
    exact addIndexed_touches hashed stack _ _ data
  | case2 _ stack data event set notIndexed pushes at_ found cut =>
    rw [baseName_eq _ (by simpa using notIndexed)]
    have found : set.getHeaderPtr headerName = some at_ := by
      split at found
      · exact found
      · cases found
    refine (body hashed data).trans (modify_touches (body hashed data).hashed found (fun hp => ?_) (fun hp => ?_))
    all_goals split <;> rfl
  | case3 _ stack event notIndexed pushes set notFound =>
    rw [baseName_eq _ (by simpa using notIndexed)]
    exact (body hashed []).trans (delHeaderVal_touches (body hashed []).hashed headerName [])
  | case4 stack data event set notIndexed pushes notFound some bare array =>
    rw [baseName_eq _ (by simpa using notIndexed)]
    exact (body hashed data).trans (uniq (body hashed data).hashed)
  | case5 stack data event set notIndexed pushes notFound some bare array depth short =>
    rw [baseName_eq _ (by simpa using notIndexed)]
    exact (body hashed data).trans (uniq (body hashed data).hashed)
  | case6 stack data event set notIndexed pushes notFound some bare array depth long inductionHypothesis =>
    have sameName := baseName_eq headerName (by simpa using notIndexed)
    rw [sameName] at inductionHypothesis ⊢
    have cleared := (body hashed data).trans (uniq (body hashed data).hashed)
    exact cleared.trans (.foldl (fun hashed element => inductionHypothesis _ element hashed) cleared.hashed _)
  | case7 _ stack data event set notIndexed pushes notFound some bare plain =>
    rw [baseName_eq _ (by simpa using notIndexed)]
    have cleared := (body hashed data).trans (uniq (body hashed data).hashed)
    exact cleared.trans (link_touches cleared.hashed stack ⟨headerName, data, _, _⟩ rfl)

theorem addHeaderString_touches (stack : EslStack) (headerName data : Text) (event : EslEvent)
    (hashed : Hashed event) : Touches (baseName headerName) event (event.addHeaderString stack headerName data) :=
  addHeaderAt_touches data.length stack.code headerName data hashed

theorem addArray_touches (var val : Text) {event : EslEvent} (hashed : Hashed event) :
    Touches (baseName var) event (event.addArray var val) := by
  rw [addArray]
  split
  · exact .refl hashed _
  · exact .foldl (fun hashed element => addHeaderString_touches .push var element _ hashed) hashed _

/-! ## Any operations -/

/-- The calls that change the headers of an event. -/
inductive EventOperation where
  | add (stack : EslStack) (headerName data : Text)
  | addArray (var val : Text)
  | del (headerName val : Text)
  | setBody (body : Text)
  deriving DecidableEq, Repr

def EventOperation.apply (event : EslEvent) : EventOperation → EslEvent
  | add stack headerName data => event.addHeaderString stack headerName data
  | addArray var val => event.addArray var val
  | del headerName val => event.delHeaderVal headerName val
  | setBody body => event.setBody body

/-- The name an operation is about. -/
def EventOperation.subject : EventOperation → Text
  | add _ headerName _ => baseName headerName
  | addArray var _ => baseName var
  | del headerName _ => headerName
  | setBody _ => "_body".toList

theorem EventOperation.touches (operation : EventOperation) {event : EslEvent} (hashed : Hashed event) :
    Touches operation.subject event (operation.apply event) := by
  cases operation with
  | add stack headerName data => exact addHeaderString_touches stack headerName data event hashed
  | addArray var val => exact addArray_touches var val hashed
  | del headerName val => exact delHeaderVal_touches hashed headerName val
  | setBody body => exact setBody_touches hashed body

/-- What a lookup is for: the value, or an element, of the first header of the name. -/
def byName (name : Text) (idx : Int) (event : EslEvent) : Option Text :=
  match header name event with
  | some hp => if idx > -1 then hp.array[idx.toNat]? else some hp.value
  | none => if name = "_body".toList then event.body else none

theorem getHeaderIdx_eq {event : EslEvent} (hashed : Hashed event) (name : Text) (idx : Int) :
    event.getHeaderIdx name idx = byName name idx event := by
  rw [getHeaderIdx, find_named hashed]
  exact rfl

theorem getHeader_eq {event : EslEvent} (hashed : Hashed event) (name : Text) :
    event.getHeader name = byName name (-1) event :=
  getHeaderIdx_eq hashed name (-1)

/-- A lookup of another name finds what it found before. -/
theorem Touches.lookup {touched : Text} {before after : EslEvent} (touches : Touches touched before after)
    {name : Text} (apart : strcaseeq touched name = false) (idx : Int) :
    byName name idx after = byName name idx before := by
  rw [byName, byName, touches.others name apart]
  by_cases isBody : name = "_body".toList
  · have notTouched : touched ≠ "_body".toList := by
      rintro rfl
      rw [isBody, (strcaseeq_iff _ _).mpr rfl] at apart
      cases apart
    rw [touches.body notTouched]
  · rw [if_neg isBody, if_neg isBody]

theorem hashed_clone : Hashed EslEvent.clone := fun _ member => nomatch member

theorem hashed_subclass {event : EslEvent} (hashed : Hashed event) (name : Text) :
    Hashed ({ event with subclassName := some name }.addHeaderString .bottom "Event-Subclass".toList name) :=
  (addHeaderString_touches _ _ _ { event with subclassName := some name } hashed).hashed

theorem hashed_createSubclass {eventId : Nat} {subclassName : Option Text} {event : EslEvent}
    (created : createSubclass eventId subclassName = some event) : Hashed event := by
  rw [createSubclass] at created
  split at created
  · cases created
  · have named : Hashed (if eventId ≠ eslEventClone then
        EslEvent.addHeaderString .bottom "Event-Name".toList ((eslEventName eventId).getD "").toList { eventId }
      else {}) := by
      split
      · exact (addHeaderString_touches _ _ _ { eventId } fun _ member => nomatch member).hashed
      · exact fun _ member => nomatch member
    cases subclassName with
    | none =>
      cases created
      exact named
    | some name =>
      cases created
      exact hashed_subclass named name

/-! ## Events that were received -/

theorem hashed_addHeader {event : EslEvent} (hashed : Hashed event) (hname hval : Text) :
    Hashed (addHeader hname hval event) := by
  rw [addHeader]
  split
  · exact (addArray_touches hname hval hashed).hashed
  · exact (addHeaderString_touches .bottom hname hval event hashed).hashed

theorem hashed_parseHeaders {lines : Nat} {p : Text} {event : EslEvent} (hashed : Hashed event) :
    Hashed (parseHeaders lines p event) := by
  fun_induction parseHeaders lines p event with
  | case1 | case2 | case3 => exact hashed
  | case4 _ _ event hname _ _ hval _ _ inductionHypothesis =>
    exact inductionHypothesis (hashed_addHeader hashed hname (eslUrlDecode hval))

theorem hashed_parsePacket (data : Text) : Hashed (parsePacket data) :=
  hashed_parseHeaders (addHeaderString_touches _ _ _ { EslEvent.clone with eventId := eslEventSocketData }
    fun _ member => nomatch member).hashed

theorem hashed_addInnerHeader {event : EslEvent} (hashed : Hashed event) (hname hval : Text) :
    Hashed (addInnerHeader hname hval event) := by
  rw [addInnerHeader]
  refine hashed_addHeader ?_ hname hval
  split
  · exact fun hp member => (delHeaderVal_touches hashed "event-name".toList []).hashed hp member
  · exact hashed

/-- One line of an event in a body. -/
theorem hashed_line {event : EslEvent} (hashed : Hashed event) (line behind : Text) :
    Hashed (match splitAt ':' line with
      | some (hname, hval) => (addInnerHeader hname (eslUrlDecode (hval.dropWhile (· = ' '))) event, behind)
      | none =>
        match splitAt ':' behind with
        | some (before, hval) => (addInnerHeader line (eslUrlDecode (hval.dropWhile (· = ' '))) event, before)
        | none => (event, behind)).1 := by
  split
  · exact hashed_addInnerHeader hashed _ _
  · split
    · exact hashed_addInnerHeader hashed _ _
    · exact hashed

theorem hashed_parseLines (lines : Nat) (beg : Text) {event : EslEvent} (hashed : Hashed event) :
    Hashed (parseLines lines beg event).1 := by
  induction lines generalizing beg event with
  | zero => exact hashed
  | succ lines inductionHypothesis =>
    rw [parseLines]
    split
    · exact hashed
    · rename_i line behind _
      have one := hashed_line hashed line behind
      dsimp only
      split
      · exact one
      · exact inductionHypothesis _ one

theorem hashed_parsePlain (body : Text) : Hashed (parsePlain body) := by
  have lines := hashed_parseLines (Text.cString body).length (Text.cString body) hashed_clone
  rw [parsePlain]
  dsimp only
  split
  · exact fun hp member => lines hp member
  · exact lines

/-- Whatever is done to a new event, a lookup finds the first header of its name, never missing one for its
hash, and operations on other names leave what it finds alone. -/
theorem lookups_by_name {eventId : Nat} {subclassName : Option Text} {event : EslEvent}
    (created : createSubclass eventId subclassName = some event) (earlier later : List EventOperation) (name : Text)
    (idx : Int) :
    let before := earlier.foldl EventOperation.apply event
    let after := later.foldl EventOperation.apply before
    after.getHeaderIdx name idx = byName name idx after ∧
      ((∀ operation ∈ later, strcaseeq operation.subject name = false) →
        after.getHeaderIdx name idx = before.getHeaderIdx name idx) := by
  have kept (operations : List EventOperation) {event : EslEvent} (hashed : Hashed event) :
      Hashed (operations.foldl EventOperation.apply event) := by
    induction operations generalizing event with
    | nil => exact hashed
    | cons operation operations inductionHypothesis => exact inductionHypothesis (operation.touches hashed).hashed
  have before := kept earlier (hashed_createSubclass created)
  intro start finish
  refine ⟨getHeaderIdx_eq (kept later before) name idx, fun apart => ?_⟩
  rw [getHeaderIdx_eq (kept later before), getHeaderIdx_eq before]
  generalize earlier.foldl EventOperation.apply event = event at before
  induction later generalizing event with
  | nil => rfl
  | cons operation operations inductionHypothesis =>
    rw [List.forall_mem_cons] at apart
    have touches := operation.touches before
    rw [List.foldl_cons, inductionHypothesis apart.2 _ touches.hashed, touches.lookup apart.1]

/-- Two names of one hash, the second added behind the first. -/
theorem lookups_by_name_same_hash :
    eslCiHash "aa".toList = eslCiHash "b@".toList ∧ ∃ event, createSubclass eslEventCustom none = some event ∧
      (let before := [EventOperation.add .bottom "aa".toList "1".toList].foldl EventOperation.apply event
       let after := [EventOperation.add .bottom "b@".toList "2".toList].foldl EventOperation.apply before
       after.getHeaderIdx "AA".toList (-1) = byName "AA".toList (-1) after ∧
         ((∀ operation ∈ [EventOperation.add .bottom "b@".toList "2".toList],
            strcaseeq operation.subject "AA".toList = false) →
           after.getHeaderIdx "AA".toList (-1) = before.getHeaderIdx "AA".toList (-1))) :=
  have created : createSubclass eslEventCustom none = some _ := rfl
  ⟨by decide, _, created, lookups_by_name created [.add .bottom "aa".toList "1".toList]
    [.add .bottom "b@".toList "2".toList] "AA".toList (-1)⟩

/-! ## Values and arrays -/

/-- The event has no header of the name. -/
theorem getHeaderPtr_eq_none {event : EslEvent} (hashed : Hashed event) {name : Text}
    (absent : header name event = none) : event.getHeaderPtr name = none := by
  rw [getHeaderPtr, List.findIdx?_eq_none_iff]
  intro hp member
  rw [named_eq (hashed hp member)]
  simpa using List.find?_eq_none.mp absent hp member

/-- A value put behind the other headers is found under its name, where there was none before. -/
theorem addHeaderString_value {event : EslEvent} {name data : Text} (noIndex : name.contains '[' = false)
    (noBody : name ≠ "_body".toList) (many : event.uniqHeaders = false) (some : data ≠ [])
    (plain : strstr "ARRAY::".toList data = false) :
    event.addHeaderString .bottom name data =
      { event with headers := event.headers ++ [⟨name, data, [], eslCiHash name⟩] } := by
  have pushes : (tests EslStack.bottom.code .push || tests EslStack.bottom.code .unshift) = false := by decide
  have top : tests EslStack.bottom.code .top = false := by decide
  rw [addHeaderString, addHeaderAt]
  simp only [if_neg noBody, noIndex, Bool.false_eq_true, if_false, pushes, many, plain, if_neg some, link, top]

end CallCenter.Verified.EslEvents
