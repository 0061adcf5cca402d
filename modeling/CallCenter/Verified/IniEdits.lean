import CallCenter.Verified.StartupSettings

/-!
# An ini file as a map of settings

Lookups take the first item with a key, and so does an edit.  After a load a section may hold a key more
than once, and then the item behind the one that `deleteKey` erases comes up in its place.
-/

namespace CallCenter.Verified.IniEdits

open Std (ExtTreeMap)
open CallCenter.Foundation CallCenter.Foundation.Text CallCenter.Model
open CallCenter.Model.IniFile (findItem assignItem retOk retErr)
open CallCenter.Verified.IniLoading

/-- The value of each key of each section. -/
abbrev SettingsMap := Text → Text → Option Text

inductive IniEdit where
  | setValue (sect key value comment : Text)
  | deleteKey (sect key : Text)
  | deleteSection (sect : Text)
  deriving DecidableEq, Repr

namespace IniEdit

def apply (ini : IniFile) : IniEdit → IniFile
  | setValue sect key value comment => ini.setValue sect key value comment
  | deleteKey sect key => ini.deleteKey sect key
  | deleteSection sect => ini.deleteSection sect

/-- What an edit is for. -/
def onMap (map : SettingsMap) : IniEdit → SettingsMap
  | setValue sect key value _ =>
    fun asked name => if asked = sect ∧ name = key then some value else map asked name
  | deleteKey sect key => fun asked name => if asked = sect ∧ name = key then none else map asked name
  | deleteSection sect => fun asked name => if asked = sect then none else map asked name

end IniEdit

/-- The lookups answer as the map does. -/
structure Agrees (ini : IniFile) (map : SettingsMap) : Prop where
  code : ∀ sect key value comment,
    (ini.getValue sect key value comment).1 = if (map sect key).isSome then retOk else retErr
  value : ∀ sect key value comment, (ini.getValue sect key value comment).2.1 = (map sect key).getD value
  hasKey : ∀ sect key, ini.hasKey sect key = (map sect key).isSome

/-- The first value of each key in the lines of a file. -/
def firstValues (lines : List IniLine) : SettingsMap := fun sect key =>
  ((entries [] lines).find? fun entry => entry.1 = sect ∧ entry.2.1 = key).map fun entry => entry.2.2

/-- The lines of a file as `load` reads them. -/
def loadedLines (flags : List Text) (file : Text) : List IniLine :=
  (readLines (file.length + 1) file).map (iniLine flags)

/-- How many items of a section have this key. -/
def occurrences (ini : IniFile) (sect key : Text) : Nat :=
  ((ini.getSection sect).map fun found => found.items.countP (·.key == key)).getD 0

/-- A key that is deleted occurs at most once. -/
def DeletesWhole (ini : IniFile) : IniEdit → Prop
  | .deleteKey sect key => occurrences ini sect key ≤ 1
  | _ => True

/-- So does every key that is deleted in a sequence of edits, at its time. -/
def DeletesWholeKeys : IniFile → List IniEdit → Prop
  | _, [] => True
  | ini, edit :: edits => DeletesWhole ini edit ∧ DeletesWholeKeys (edit.apply ini) edits

instance (ini : IniFile) (edit : IniEdit) : Decidable (DeletesWhole ini edit) := by
  cases edit <;> unfold DeletesWhole <;> infer_instance

instance decidableDeletesWholeKeys :
    ∀ (ini : IniFile) (edits : List IniEdit), Decidable (DeletesWholeKeys ini edits)
  | _, [] => inferInstanceAs (Decidable True)
  | ini, edit :: edits =>
    have := decidableDeletesWholeKeys (edit.apply ini) edits
    inferInstanceAs (Decidable (DeletesWhole ini edit ∧ DeletesWholeKeys (edit.apply ini) edits))

/-- The lookups answer as the map does before, between and after the edits. -/
def AgreesThroughout (ini : IniFile) (map : SettingsMap) (edits : List IniEdit) : Prop :=
  ∀ earlier later, edits = earlier ++ later →
    Agrees (earlier.foldl IniEdit.apply ini) (earlier.foldl IniEdit.onMap map)

/-! ## Lookups -/

theorem hasKey_eq (ini : IniFile) (sect key : Text) : ini.hasKey sect key = (valueOf ini sect key).isSome := by
  rw [IniFile.hasKey, valueOf]
  cases ini.getSection sect with
  | none => rfl
  | some found =>
    rw [Option.bind_some, Option.isSome_map, findItem, List.isSome_find?]

theorem agrees_iff {ini : IniFile} {map : SettingsMap} :
    Agrees ini map ↔ ∀ sect key, valueOf ini sect key = map sect key := by
  have looked : ∀ sect key value comment, (ini.getValue sect key value comment).1 =
      (if (valueOf ini sect key).isSome then retOk else retErr) ∧
      (ini.getValue sect key value comment).2.1 = (valueOf ini sect key).getD value := by
    intro sect key value comment
    rw [IniFile.getValue, valueOf]
    cases (ini.getSection sect).bind (findItem key) <;> exact ⟨rfl, rfl⟩
  constructor
  · intro agrees sect key
    have present := agrees.hasKey sect key
    rw [hasKey_eq] at present
    have value := agrees.value sect key [] []
    rw [(looked sect key [] []).2] at value
    cases found : valueOf ini sect key with
    | none =>
      rw [found] at present
      exact (Option.not_isSome_iff_eq_none.mp (by simp [← present])).symm
    | some text =>
      rw [found] at present value
      obtain ⟨other, known⟩ := Option.isSome_iff_exists.mp present.symm
      rw [known] at value ⊢
      exact congrArg some value
  · intro same
    exact
      { code := fun sect key value comment => by rw [(looked sect key value comment).1, same]
        value := fun sect key value comment => by rw [(looked sect key value comment).2, same]
        hasKey := fun sect key => by rw [hasKey_eq, same] }

/-! ## One edit -/

theorem find?_assignItem (key value comt name : Text) (items : List IniItem) :
    ((assignItem key value comt items).find? (·.key == name)).map IniItem.value =
      if name = key then some value else (items.find? (·.key == name)).map IniItem.value := by
  induction items with
  | nil =>
    by_cases same : name = key
    · simp [assignItem, same]
    · simp [assignItem, same, Ne.symm same]
  | cons it items inductionHypothesis =>
    rw [assignItem]
    by_cases own : it.key = key
    · by_cases same : name = key
      · simp [own, same]
      · simp [own, same, Ne.symm same]
    · rw [if_neg own, List.find?_cons, List.find?_cons]
      by_cases found : it.key = name
      · have different : name ≠ key := fun same => own (found.trans same)
        simp [found, different]
      · have missed : (it.key == name) = false := by simpa using found
        rw [missed]
        exact inductionHypothesis

theorem find?_eraseP_of_ne {key name : Text} (different : name ≠ key) (items : List IniItem) :
    (items.eraseP (·.key == key)).find? (·.key == name) = items.find? (·.key == name) := by
  induction items with
  | nil => rfl
  | cons it items inductionHypothesis =>
    by_cases own : it.key = key
    · have missed : (it.key == name) = false := by simpa [own] using Ne.symm different
      rw [List.eraseP_cons_of_pos (by simpa using own), List.find?_cons, missed]
    · rw [List.eraseP_cons_of_neg (by simpa using own), List.find?_cons, List.find?_cons, inductionHypothesis]

theorem find?_eraseP_self_iff (key : Text) (items : List IniItem) :
    (items.eraseP (·.key == key)).find? (·.key == key) = none ↔ items.countP (·.key == key) ≤ 1 := by
  induction items with
  | nil => simp
  | cons it items inductionHypothesis =>
    by_cases own : (it.key == key) = true
    · rw [List.eraseP_cons_of_pos (p := fun it : IniItem => it.key == key) own,
        List.countP_cons_of_pos (p := fun it : IniItem => it.key == key) own, List.find?_eq_none]
      have none : (∀ other ∈ items, ¬ (other.key == key) = true) ↔ items.countP (·.key == key) = 0 :=
        List.countP_eq_zero.symm
      rw [none]
      omega
    · rw [List.eraseP_cons_of_neg (p := fun it : IniItem => it.key == key) own,
        List.countP_cons_of_neg (p := fun it : IniItem => it.key == key) own,
        List.find?_cons_of_neg (p := fun it : IniItem => it.key == key) own, inductionHypothesis]

theorem valueOf_setValue (ini : IniFile) (sect key value comment asked name : Text) :
    valueOf (ini.setValue sect key value comment) asked name =
      if asked = sect ∧ name = key then some value else valueOf ini asked name := by
  simp only [valueOf, IniFile.getSection, IniFile.setValue, ExtTreeMap.getElem?_insert]
  by_cases same : sect = asked
  · subst same
    simp only [Std.compare_self, if_true, Option.bind_some, findItem, true_and, find?_assignItem]
    cases ini.sections[sect]? <;> rfl
  · rw [if_neg (by simpa using same), if_neg (fun both => same both.1.symm)]

theorem valueOf_deleteSection (ini : IniFile) (sect asked name : Text) :
    valueOf (ini.deleteSection sect) asked name = if asked = sect then none else valueOf ini asked name := by
  simp only [valueOf, IniFile.getSection, IniFile.deleteSection, ExtTreeMap.getElem?_erase]
  by_cases same : sect = asked
  · subst same
    simp
  · rw [if_neg (by simpa using same), if_neg (Ne.symm same)]

/-- Only the deleted key is looked up in another way. -/
theorem valueOf_deleteKey_of_ne {sect key asked name : Text} (other : ¬ (asked = sect ∧ name = key))
    (ini : IniFile) :
    valueOf (ini.deleteKey sect key) asked name = valueOf ini asked name := by
  rw [IniFile.deleteKey]
  cases present : ini.getSection sect with
  | none => rfl
  | some found =>
    simp only [valueOf, IniFile.getSection, ExtTreeMap.getElem?_insert]
    by_cases same : sect = asked
    · subst same
      rw [IniFile.getSection] at present
      have different : name ≠ key := fun own => other ⟨rfl, own⟩
      simp [present, findItem, find?_eraseP_of_ne different]
    · rw [if_neg (by simpa using same)]

theorem valueOf_deleteKey_self_iff (ini : IniFile) (sect key : Text) :
    valueOf (ini.deleteKey sect key) sect key = none ↔ occurrences ini sect key ≤ 1 := by
  rw [IniFile.deleteKey, occurrences]
  cases present : ini.getSection sect with
  | none => simp [valueOf, present]
  | some found =>
    simp only [valueOf, IniFile.getSection, ExtTreeMap.getElem?_insert, Std.compare_self, if_true,
      Option.bind_some, findItem, Option.map_eq_none_iff, find?_eraseP_self_iff, Option.map_some,
        Option.getD_some]

/-- An edit keeps the lookups and the map together exactly when it deletes no key that occurs again. -/
theorem agrees_apply_iff {ini : IniFile} {map : SettingsMap} (agrees : Agrees ini map) (edit : IniEdit) :
    Agrees (edit.apply ini) (edit.onMap map) ↔ DeletesWhole ini edit := by
  have same := agrees_iff.mp agrees
  cases edit with
  | setValue sect key value comment =>
    refine iff_of_true (agrees_iff.mpr fun asked name => ?_) trivial
    simp only [IniEdit.apply, IniEdit.onMap, valueOf_setValue, same]
  | deleteSection sect =>
    refine iff_of_true (agrees_iff.mpr fun asked name => ?_) trivial
    simp only [IniEdit.apply, IniEdit.onMap, valueOf_deleteSection, same]
  | deleteKey sect key =>
    rw [agrees_iff, DeletesWhole, ← valueOf_deleteKey_self_iff]
    constructor
    · intro kept
      exact (kept sect key).trans (if_pos ⟨rfl, rfl⟩)
    · intro gone asked name
      show valueOf (ini.deleteKey sect key) asked name =
        if asked = sect ∧ name = key then none else map asked name
      by_cases own : asked = sect ∧ name = key
      · rw [if_pos own, own.1, own.2]
        exact gone
      · rw [if_neg own, ← same]
        exact valueOf_deleteKey_of_ne own ini

/-! ## Sequences of edits -/

theorem agreesThroughout_iff {ini : IniFile} {map : SettingsMap} (agrees : Agrees ini map)
    (edits : List IniEdit) :
    AgreesThroughout ini map edits ↔ DeletesWholeKeys ini edits := by
  induction edits generalizing ini map with
  | nil =>
    refine iff_of_true (fun earlier later empty => ?_) trivial
    obtain ⟨rfl, rfl⟩ := List.append_eq_nil_iff.mp empty.symm
    exact agrees
  | cons edit edits inductionHypothesis =>
    have step := agrees_apply_iff agrees edit
    constructor
    · intro throughout
      have first := throughout [edit] edits rfl
      refine ⟨step.mp first, (inductionHypothesis first).mp fun earlier later split => ?_⟩
      exact throughout (edit :: earlier) later (by rw [split]; rfl)
    · rintro ⟨whole, others⟩ earlier later split
      cases earlier with
      | nil => exact agrees
      | cons first earlier =>
        obtain ⟨rfl, rest⟩ := List.cons.inj split
        exact (inductionHypothesis (step.mpr whole)).mpr others earlier later rest

theorem valueOf_of_stores {ini : IniFile} {lines : List IniLine} (stores : Stores lines ini.sections)
    (sect key : Text) : valueOf ini sect key = firstValues lines sect key := by
  rw [valueOf, IniFile.getSection, firstValues]
  cases present : ini.sections[sect]? with
  | none =>
    have absent : sect ∉ ini.sections := fun member => by
      rw [ExtTreeMap.mem_iff_isSome_getElem?, present] at member
      cases member
    have noEntry : (entries [] lines).find? (fun entry => entry.1 = sect ∧ entry.2.1 = key) = none := by
      refine List.find?_eq_none.mpr fun entry listed found => absent ((stores.names sect).mpr ?_)
      have own : entry.1 = sect := (of_decide_eq_true found).1
      exact own ▸ mem_entries listed
    rw [noEntry]
    rfl
  | some found =>
    -- the items of the section are its entries, in their order
    have items := congrArg (fun pairs => (pairs.find? fun pair => pair.1 == key).map Prod.snd)
      (stores.items sect found present)
    simp only [List.find?_map, List.find?_filter, Option.map_map] at items
    rw [Option.bind_some, findItem]
    refine items.trans ?_
    congr 1
    refine List.find?_congr fun entry _ => ?_
    simp [Bool.decide_and]

/-- A file that loads starts with the first value of each key. -/
theorem agrees_load {self ini : IniFile} {file : Text} (loaded : self.load (some file) = .ok (0, ini)) :
    Agrees ini (firstValues (loadedLines self.flags file)) := by
  have result := @Loaded.run self.flags _ _ (loaded_start {} rfl) (readLines (file.length + 1) file)
  rw [← loadFrom_eq_readLines] at result
  simp only [IniFile.load] at loaded
  cases done : loadFrom self.flags (file.length + 1) file _ with
  | error fault =>
    rw [done] at loaded
    cases loaded
  | ok outcome =>
    obtain ⟨code, sections⟩ := outcome
    rw [done] at result loaded
    cases loaded
    obtain ⟨_, ⟨bad, _⟩ | ⟨_, _, stores⟩⟩ := result
    · cases bad
    · exact agrees_iff.mpr (valueOf_of_stores stores)

/-- A loaded file behaves as a map of settings exactly as long as no key is deleted that occurs again. -/
theorem behavesAsMap_iff {self ini : IniFile} {file : Text} (loaded : self.load (some file) = .ok (0, ini))
    (edits : List IniEdit) :
    AgreesThroughout ini (firstValues (loadedLines self.flags file)) edits ↔ DeletesWholeKeys ini edits :=
  agreesThroughout_iff (agrees_load loaded) edits

/-- What is loaded from a text. -/
def loadedFile (text : Text) : IniFile :=
  match IniFile.load {} (some text) with
  | .ok (_, ini) => ini
  | .error _ => {}

theorem loadedFile_eq {text : Text} (loads : (IniFile.load {} (some text)).toOption.map Prod.fst = some 0) :
    IniFile.load {} (some text) = .ok (0, loadedFile text) := by
  rw [loadedFile]
  cases done : IniFile.load {} (some text) with
  | error fault => simp [done, Except.toOption] at loads
  | ok result =>
    obtain ⟨code, ini⟩ := result
    obtain rfl : code = 0 := by simpa [done, Except.toOption] using loads
    rfl

/-- A key that is set twice, deleted, and gone with its section. -/
theorem behavesAsMap_prefix :
    AgreesThroughout (loadedFile "[TXBETA]\nprefix=88\nwsport=10081\n".toList)
      (firstValues (loadedLines defaultFlags "[TXBETA]\nprefix=88\nwsport=10081\n".toList))
      [.setValue "TXBETA".toList "prefix".toList "99".toList [], .deleteKey "TXBETA".toList "prefix".toList,
       .setValue "TXBETA".toList "prefix".toList "77".toList [], .deleteSection "TXBETA".toList] :=
  (behavesAsMap_iff (loadedFile_eq (by decide +kernel)) _).mpr (by decide +kernel)

/-- Of a key that the file sets twice, the second value comes up when it is deleted. -/
theorem deleted_key_comes_up :
    ¬ ∀ (self ini : IniFile) (file : Text) (edits : List IniEdit), self.load (some file) = .ok (0, ini) →
      AgreesThroughout ini (firstValues (loadedLines self.flags file)) edits := by
  intro behaves
  have loaded := @loadedFile_eq "[TXBETA]\nprefix=88\nprefix=99\n".toList (by decide +kernel)
  have throughout := behaves _ _ _ [.deleteKey "TXBETA".toList "prefix".toList] loaded
  have whole := (agreesThroughout_iff (agrees_load loaded) _).mp throughout
  revert whole
  decide +kernel

end CallCenter.Verified.IniEdits
