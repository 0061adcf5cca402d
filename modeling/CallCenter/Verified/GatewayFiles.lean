import CallCenter.Model.FreeswitchXml
import CallCenter.Verified.StreamCuts

/-!
# Editing the file of a gateway

`Setgataxml` parses the path of the file in place of the file, looks for elements and an attribute that
`Creategata` never writes, and is called with the member `root` of the command for the gateway's name.
`SetDNpasswd`, its sibling, edits what `CreateDNxml` wrote.
-/

namespace CallCenter.Verified

open Std (ExtTreeMap)
open CallCenter.Foundation CallCenter.Model CallCenter.Model.XmlHost

/-- What a `CreateFSxml` command sets. -/
inductive GatewayParameter where
  | realm
  | proxy
  | expirese
  | username
  | password
  | strregister
  deriving DecidableEq, Repr

structure GatewayValues where
  realm : String
  proxy : String
  expirese : String
  username : String
  password : String
  strregister : String

namespace GatewayValues

def get (values : GatewayValues) : GatewayParameter → String
  | .realm => values.realm
  | .proxy => values.proxy
  | .expirese => values.expirese
  | .username => values.username
  | .password => values.password
  | .strregister => values.strregister

def set (values : GatewayValues) (value : String) : GatewayParameter → GatewayValues
  | .realm => { values with realm := value }
  | .proxy => { values with proxy := value }
  | .expirese => { values with expirese := value }
  | .username => { values with username := value }
  | .password => { values with password := value }
  | .strregister => { values with strregister := value }

/-- The command that creates the gateway. -/
def command (name : String) (values : GatewayValues) : TcpCommand :=
  .createFSxml name values.realm values.proxy values.expirese values.username values.password values.strregister

/-- The document in the gateway's file. -/
def document (name : String) (values : GatewayValues) : XmlDocument :=
  gatewayDocument name values.realm values.proxy values.expirese values.username values.password
    values.strregister

end GatewayValues

/-- The parameter as the command names it, or as it stands in the file. -/
def NamesParameter (param : String) : GatewayParameter → Prop
  | .realm => param = "realm"
  | .proxy => param = "proxy"
  | .expirese => param = "expirese" ∨ param = "expire-seconds"
  | .username => param = "username"
  | .password => param = "password"
  | .strregister => param = "register"

/-- The text is a `SetFSxml` command for this gateway, parameter and value; `root` is what stands in the
member of that name, which no check asks for. -/
structure SetsParameter (lib : Libraries) (text name : String) (parameter : GatewayParameter)
    (param value : String) (root : Json) : Prop where
  parsed : ∃ object, lib.read (cStr text) = .ok (some object) ∧ object.hasMembers = true ∧
    (∀ member ∈ [("cmd", Json.string "SetFSxml"), ("name", .string name), ("param", .string param),
      ("value", .string value)], object.field member.1 = member.2) ∧ object.field "root" = root
  named : NamesParameter param parameter

/-- The commands after their `Deletetask`, one after another. -/
def carryOutAll (lib : Libraries) (texts : List String) (manager : CalloutManager) :
    Except Fault CalloutManager :=
  texts.foldlM (fun manager text => (manager.onCommand lib text).map Prod.snd) manager

/-- The files after the calls of a server. -/
def filesAfter (host : XmlHost) (start : XmlFiles) (manager : CalloutManager) : XmlFiles :=
  manager.xmlCalls.foldl host.perform start

/-- Created and then edited, the gateway's file is as if it had been created with the new value. -/
def EditAgrees (lib : Libraries) (host : XmlHost) (start : XmlFiles) (manager : CalloutManager)
    (created changed name : String) (values : GatewayValues) (parameter : GatewayParameter) (value : String) :
    Prop :=
  ∃ after, carryOutAll lib [created, changed] manager = .ok after ∧
    (filesAfter host start after)[cStr (host.gatewayPath name)]? =
      (filesAfter host start (((values.set value parameter).command name).carryOut manager))[cStr
        (host.gatewayPath name)]?

/-- The document that `Setgataxml` saves in the gateway's file, if it saves one there. -/
def rewritten (host : XmlHost) (name target : String) : Option XmlDocument :=
  if cStr (host.gatewayPath target) = cStr (host.gatewayPath name) then
    host.load (cStr (host.gatewayPath target))
  else none

/-- The file cannot be written; or nothing is saved over it and the value is the old one. -/
def EditKeeps (host : XmlHost) (name : String) (values : GatewayValues) (parameter : GatewayParameter)
    (value target : String) : Prop :=
  host.writable (cStr (host.gatewayPath name)) = true →
    rewritten host name target = none ∧ cStr value = cStr (values.get parameter)

/-- An element of the document, at any depth, has this attribute. -/
inductive HasAttribute (key value : String) : XmlDocument → Prop where
  | here {xdoc : XmlDocument} {name : String} {attributes : List (String × String)} {children : List XmlNode} :
    .element name attributes children ∈ xdoc → (key, value) ∈ attributes → HasAttribute key value xdoc
  | inside {xdoc : XmlDocument} {name : String} {attributes : List (String × String)}
    {children : List XmlNode} :
    .element name attributes children ∈ xdoc → HasAttribute key value children → HasAttribute key value xdoc

/-- What is assumed of the host: the gateways' directory is a path without a `<`, and what pugixml reads
as an attribute's value stands between the quotes of an element, behind the first `<` of the text. -/
structure ReadsMarkup (host : XmlHost) : Prop where
  directory : '\x00' ∉ host.fsxmlpath.toList ∧ '<' ∉ host.fsxmlpath.toList
  within : ∀ text xdoc, host.load text = some xdoc → ∀ key value, HasAttribute key value xdoc →
    value.length + "<a b=''/>".length ≤ (text.toList.dropWhile (· != '<')).length

/-! ## The documents -/

theorem document_eq_iff (name : String) (values other : GatewayValues) :
    values.document name = other.document name ↔
      cStr values.realm = cStr other.realm ∧ cStr values.proxy = cStr other.proxy ∧
      cStr values.expirese = cStr other.expirese ∧ cStr values.username = cStr other.username ∧
      cStr values.password = cStr other.password ∧ cStr values.strregister = cStr other.strregister := by
  simp only [GatewayValues.document, gatewayDocument, named, List.cons.injEq, XmlNode.element.injEq,
    Prod.mk.injEq, and_true, true_and]

theorem document_set_eq_iff (name : String) (values : GatewayValues) (parameter : GatewayParameter)
    (value : String) :
    values.document name = (values.set value parameter).document name ↔
      cStr value = cStr (values.get parameter) := by
  rw [document_eq_iff]
  cases parameter <;> simp [GatewayValues.set, GatewayValues.get, eq_comm]

theorem document_hasAttribute (name : String) (values : GatewayValues) :
    HasAttribute "name" (cStr name) (values.document name) :=
  .inside (List.mem_singleton_self _) (.here (List.mem_singleton_self _) (List.mem_singleton_self _))

/-! ## What the edit of a document adds -/

section
variable {key value : String}

theorem hasAttribute_cons {node : XmlNode} {rest : List XmlNode} :
    HasAttribute key value (node :: rest) ↔ HasAttribute key value [node] ∨ HasAttribute key value rest := by
  constructor
  · rintro (⟨found, held⟩ | ⟨found, held⟩)
    · obtain rfl | later := List.mem_cons.mp found
      · exact .inl (.here (List.mem_singleton_self _) held)
      · exact .inr (.here later held)
    · obtain rfl | later := List.mem_cons.mp found
      · exact .inl (.inside (List.mem_singleton_self _) held)
      · exact .inr (.inside later held)
  · rintro ((⟨found, held⟩ | ⟨found, held⟩) | (⟨found, held⟩ | ⟨found, held⟩))
    · exact .here (List.mem_cons.mpr (.inl (List.mem_singleton.mp found))) held
    · exact .inside (List.mem_cons.mpr (.inl (List.mem_singleton.mp found))) held
    · exact .here (List.mem_cons_of_mem _ found) held
    · exact .inside (List.mem_cons_of_mem _ found) held

theorem hasAttribute_element {name : String} {attributes : List (String × String)} {children : List XmlNode} :
    HasAttribute key value [.element name attributes children] ↔
      (key, value) ∈ attributes ∨ HasAttribute key value children := by
  constructor
  · rintro (⟨found, held⟩ | ⟨found, held⟩)
    · obtain ⟨rfl, rfl, rfl⟩ := XmlNode.element.inj (List.mem_singleton.mp found)
      exact .inl held
    · obtain ⟨rfl, rfl, rfl⟩ := XmlNode.element.inj (List.mem_singleton.mp found)
      exact .inr held
  · rintro (held | held)
    · exact .here (List.mem_singleton_self _) held
    · exact .inside (List.mem_singleton_self _) held

/-- The edit of a node gives it no attribute `key="value"`. -/
def AddsNone (key value : String) (edit : XmlNode → XmlNode) : Prop :=
  ∀ node, HasAttribute key value [edit node] → HasAttribute key value [node]

theorem AddsNone.editFirst {found : XmlNode → Bool} {edit : XmlNode → XmlNode} (adds : AddsNone key value edit)
    {nodes : List XmlNode} (held : HasAttribute key value (XmlNode.editFirst found edit nodes)) :
    HasAttribute key value nodes := by
  induction nodes with
  | nil => exact held
  | cons node rest ih =>
    rw [XmlNode.editFirst] at held
    rw [hasAttribute_cons]
    split at held
    · exact (hasAttribute_cons.mp held).imp_left (adds node)
    · exact (hasAttribute_cons.mp held).imp_right ih

theorem AddsNone.editChild {edit : XmlNode → XmlNode} (adds : AddsNone key value edit) (childName : String) :
    AddsNone key value (XmlNode.editChild childName edit) := by
  rintro ⟨name, attributes, children⟩ held
  rw [XmlNode.editChild, hasAttribute_element] at held
  exact hasAttribute_element.mpr (held.imp_right adds.editFirst)

theorem mem_assignAttribute {other new : String} (different : key ≠ other)
    {attributes : List (String × String)}
    (held : (key, value) ∈ XmlNode.assignAttribute other new attributes) : (key, value) ∈ attributes := by
  induction attributes with
  | nil => exact held
  | cons pair rest ih =>
    rw [XmlNode.assignAttribute] at held
    split at held
    · obtain same | later := List.mem_cons.mp held
      · exact absurd ((Prod.mk.inj same).1.trans ‹_›) different
      · exact List.mem_cons_of_mem _ later
    · obtain same | later := List.mem_cons.mp held
      · exact List.mem_cons.mpr (.inl same)
      · exact List.mem_cons_of_mem _ (ih later)

theorem addsNone_setAttribute {other : String} (different : key ≠ other) (new : String) :
    AddsNone key value (XmlNode.setAttribute other new) := by
  rintro ⟨name, attributes, children⟩ held
  rw [XmlNode.setAttribute, hasAttribute_element] at held
  exact hasAttribute_element.mpr (held.imp_left (mem_assignAttribute different))

/-- The edit sets attributes of one name only. -/
theorem hasAttribute_of_editGateway {target param new : String} {xdoc : XmlDocument} (different : key ≠ "vaule")
    (held : HasAttribute key value (editGateway target param new xdoc)) : HasAttribute key value xdoc := by
  have adds : AddsNone key value (XmlNode.setAttribute "vaule" new) := addsNone_setAttribute different new
  rw [editGateway] at held
  split at held
  · exact (adds.editChild "register").editFirst held
  · exact ((adds.editChild (cStr param)).editChild (cStr target)).editFirst held

end

/-! ## The files -/

theorem saveFile_self (host : XmlHost) (path : String) (xdoc : XmlDocument) (files : XmlFiles) :
    (host.saveFile path xdoc files)[cStr path]? =
      if host.writable (cStr path) then some xdoc else files[cStr path]? := by
  rw [saveFile]
  split
  · simp
  · rfl

theorem saveFile_other (host : XmlHost) {path other : String} (different : cStr path ≠ cStr other)
    (xdoc : XmlDocument) (files : XmlFiles) :
    (host.saveFile path xdoc files)[cStr other]? = files[cStr other]? := by
  rw [saveFile]
  split
  · rw [ExtTreeMap.getElem?_insert, if_neg (by simpa using different)]
  · rfl

/-- The gateway's file after the two calls. -/
theorem setgataxml_creategata (host : XmlHost) (start : XmlFiles) (name : String) (values : GatewayValues)
    (target param value : String) :
    (host.setgataxml target param value
      (host.saveFile (host.gatewayPath name) (values.document name) start))[cStr (host.gatewayPath name)]? =
      if host.writable (cStr (host.gatewayPath name)) then
        some (((rewritten host name target).map (editGateway target param value)).getD (values.document name))
      else start[cStr (host.gatewayPath name)]? := by
  rw [setgataxml, rewritten]
  by_cases same : cStr (host.gatewayPath target) = cStr (host.gatewayPath name)
  · rw [if_pos same]
    cases host.load (cStr (host.gatewayPath target)) with
    | none => exact saveFile_self host _ _ start
    | some xdoc =>
      show (host.saveFile (host.gatewayPath target) _ _)[cStr (host.gatewayPath name)]? = _
      rw [← same, saveFile_self, same]
      by_cases writable : host.writable (cStr (host.gatewayPath name)) = true
      · rw [if_pos writable, if_pos writable]
        rfl
      · rw [if_neg writable, if_neg writable, saveFile_self, if_neg writable]
  · rw [if_neg same]
    -- the edit is of another file, if of any
    have kept := saveFile_self host (host.gatewayPath name) (values.document name) start
    cases host.load (cStr (host.gatewayPath target)) with
    | none => exact kept
    | some xdoc => exact (saveFile_other host same _ _).trans kept

/-! ## The commands -/

section
variable {lib : Libraries} {created changed name : String} {values : GatewayValues}
variable {parameter : GatewayParameter} {param value : String} {root : Json}

theorem onCommand_of_setsParameter (sets : SetsParameter lib changed name parameter param value root)
    (manager : CalloutManager) :
    manager.onCommand lib changed =
      root.asString.map fun target => ("ok", manager.callXml (.setgataxml target param value)) := by
  obtain ⟨object, parsed, isObject, members, other⟩ := sets.parsed
  simp only [List.forall_mem_cons] at members
  obtain ⟨cmd, name, param, value, -⟩ := members
  simp only [CalloutManager.onCommand, parsed, stringField_eq, isObject, if_true, bind, Except.bind,
    cmd, Json.text?]
  show CalloutManager.setFSxmlCmd object manager = _
  simp only [CalloutManager.setFSxmlCmd, stringField_eq, Json.member_eq, isObject, if_true, name, param, value,
    other, Json.text?, bind, Except.bind]
  cases root.asString <;> rfl

theorem carryOutAll_edit (creates : IsText lib created (values.command name))
    (sets : SetsParameter lib changed name parameter param value root) (manager : CalloutManager) :
    carryOutAll lib [created, changed] manager =
      root.asString.map fun target =>
        ((values.command name).carryOut manager).callXml (.setgataxml target param value) := by
  have first := onCommand_of_isText creates manager
  have second := onCommand_of_setsParameter sets ((values.command name).carryOut manager)
  simp only [carryOutAll, List.foldlM_cons, List.foldlM_nil, first, second, Except.map, bind, Except.bind]
  cases root.asString <;> rfl

/-- The gateway's file after the two commands. -/
theorem filesAfter_edit (host : XmlHost) (start : XmlFiles) (manager : CalloutManager) (target : String) :
    (filesAfter host start (((values.command name).carryOut manager).callXml
      (.setgataxml target param value)))[cStr (host.gatewayPath name)]? =
      if host.writable (cStr (host.gatewayPath name)) then
        some (((rewritten host name target).map (editGateway target param value)).getD (values.document name))
      else (filesAfter host start manager)[cStr (host.gatewayPath name)]? := by
  rw [← setgataxml_creategata]
  simp only [filesAfter, GatewayValues.command, TcpCommand.carryOut, CalloutManager.callXml, List.foldl_append]
  rfl

theorem filesAfter_create (host : XmlHost) (start : XmlFiles) (manager : CalloutManager) :
    (filesAfter host start ((values.command name).carryOut manager))[cStr (host.gatewayPath name)]? =
      if host.writable (cStr (host.gatewayPath name)) then some (values.document name)
      else (filesAfter host start manager)[cStr (host.gatewayPath name)]? := by
  rw [← saveFile_self]
  simp only [filesAfter, GatewayValues.command, TcpCommand.carryOut, CalloutManager.callXml, List.foldl_append]
  rfl

theorem length_takeWhile_append_le {α : Type} (p : α → Bool) (xs ys : List α) :
    ((xs ++ ys).takeWhile p).length ≤ (xs.takeWhile p).length + ys.length := by
  rw [List.takeWhile_append]
  split
  · rename_i whole
    rw [List.length_append, whole]
    exact Nat.add_le_add_left (List.takeWhile_prefix _).length_le _
  · exact Nat.le_add_right _ _

/-- Behind the first `<` of a gateway's path stands little more than the name. -/
theorem length_markup_gatewayPath_le {host : XmlHost} (reads : ReadsMarkup host) (name : String) :
    ((cStr (host.gatewayPath name)).toList.dropWhile (· != '<')).length ≤
      (cStr name).length + ".xml".length := by
  have whole : host.fsxmlpath.toList.takeWhile (· != '\x00') = host.fsxmlpath.toList := by
    rw [List.takeWhile_eq_self_iff]
    exact fun c held => bne_iff_ne.mpr fun zero => reads.directory.1 (zero ▸ held)
  have path : (cStr (host.gatewayPath name)).toList =
      host.fsxmlpath.toList ++ (name.toList ++ ".xml".toList).takeWhile (· != '\x00') := by
    rw [cStr, gatewayPath, String.toList_ofList, String.toList_append, String.toList_append, List.append_assoc,
      List.takeWhile_append, whole, if_pos rfl]
  have directory : host.fsxmlpath.toList.dropWhile (· != '<') = [] := by
    rw [List.dropWhile_eq_nil_iff]
    intro c held
    have other : c ≠ '<' := fun markup => reads.directory.2 (markup ▸ held)
    simpa using other
  rw [path, List.dropWhile_append, directory, if_pos List.isEmpty_nil]
  calc (((name.toList ++ ".xml".toList).takeWhile (· != '\x00')).dropWhile (· != '<')).length
      ≤ ((name.toList ++ ".xml".toList).takeWhile (· != '\x00')).length := (List.dropWhile_suffix _).length_le
    _ ≤ (name.toList.takeWhile (· != '\x00')).length + ".xml".toList.length := length_takeWhile_append_le ..
    _ = (cStr name).length + ".xml".length := by
      rw [cStr, String.length_ofList, String.length_toList]

/-- The document that is asked for names the gateway, so the gateway's path is too short to spell it. -/
theorem not_rewritten_as_asked {host : XmlHost} (reads : ReadsMarkup host) {target param new : String}
    {xdoc : XmlDocument} (saved : rewritten host name target = some xdoc) :
    editGateway target param new xdoc ≠ values.document name := by
  intro same
  rw [rewritten] at saved
  split at saved
  · rename_i samePath
    have asked := document_hasAttribute name values
    rw [← same] at asked
    have held : HasAttribute "name" (cStr name) xdoc := hasAttribute_of_editGateway (by decide) asked
    have longer := reads.within _ _ saved _ _ held
    rw [samePath] at longer
    have short := length_markup_gatewayPath_le reads name
    have markup : ".xml".length < "<a b=''/>".length := by decide
    omega
  · cases saved

/-- Whatever the host reads: the edit agrees with writing exactly when the document it leaves is the one that
is asked for. -/
theorem editAgrees_iff_saved (creates : IsText lib created (values.command name))
    (sets : SetsParameter lib changed name parameter param value root)
    (host : XmlHost) (start : XmlFiles) (manager : CalloutManager) :
    EditAgrees lib host start manager created changed name values parameter value ↔
      ∃ target, root.asString = .ok target ∧ (host.writable (cStr (host.gatewayPath name)) = true →
        ((rewritten host name target).map (editGateway target param value)).getD (values.document name) =
          (values.set value parameter).document name) := by
  rw [EditAgrees, carryOutAll_edit creates sets]
  cases root.asString with
  | error fault => simp [Except.map]
  | ok target =>
    simp only [Except.map, Except.ok.injEq, exists_eq_left', filesAfter_edit, filesAfter_create]
    by_cases writable : host.writable (cStr (host.gatewayPath name)) = true
    · simp only [writable, if_true, Option.some.injEq, forall_const]
    · simp [writable]

/-- The edit agrees with writing exactly when the file keeps what a new gateway would have. -/
theorem editAgrees_iff (creates : IsText lib created (values.command name))
    (sets : SetsParameter lib changed name parameter param value root)
    (host : XmlHost) (reads : ReadsMarkup host) (start : XmlFiles) (manager : CalloutManager) :
    EditAgrees lib host start manager created changed name values parameter value ↔
      ∃ target, root.asString = .ok target ∧ EditKeeps host name values parameter value target := by
  rw [editAgrees_iff_saved creates sets]
  refine exists_congr fun target => and_congr_right fun _ => imp_congr_right fun _ => ?_
  cases saved : rewritten host name target with
  | none => simpa using document_set_eq_iff name values parameter value
  | some xdoc => simpa using not_rewritten_as_asked reads saved

end

/-- The sibling that reads the file and edits what is in it agrees with writing. -/
theorem setDNpasswd_createDNxml (host : XmlHost) (start : XmlFiles) (dnnumber password : String)
    (writable : host.writable (cStr (directoryPath dnnumber)) = true) :
    (host.setDNpasswd dnnumber password (host.createDNxml dnnumber start))[cStr (directoryPath dnnumber)]? =
      some (directoryDocument dnnumber password) := by
  have created : (host.createDNxml dnnumber start)[cStr (directoryPath dnnumber)]? =
      some (directoryDocument dnnumber "$$\x7bdefault_password\x7d") := by
    rw [createDNxml, saveFile_self, if_pos writable]
  simp only [setDNpasswd, created]
  rw [saveFile_self, if_pos writable]
  rfl

/-! ## A gateway -/

def reingw : GatewayValues where
  realm       := "10.0.0.1"
  proxy       := "10.0.0.1"
  expirese    := "3600"
  username    := "88"
  password    := "tx"
  strregister := "true"

def createdText : String :=
  "\x7b\x22cmd\x22:\x22CreateFSxml\x22,\x22name\x22:\x22reingw\x22,\x22realm\x22:\x2210.0.0.1\x22,"
    ++ "\x22proxy\x22:\x2210.0.0.1\x22,\x22expirese\x22:\x223600\x22,\x22username\x22:\x2288\x22,"
    ++ "\x22password\x22:\x22tx\x22,\x22register\x22:\x22true\x22\x7d"

/-- The realm is set to this address. -/
def changedText (address : String) : String :=
  "\x7b\x22cmd\x22:\x22SetFSxml\x22,\x22name\x22:\x22reingw\x22,\x22param\x22:\x22realm\x22,\x22value\x22:\x22"
    ++ address ++ "\x22\x7d"

def changedFields (address : String) : List (String × Json) :=
  [("cmd", .string "SetFSxml"), ("name", .string "reingw"), ("param", .string "realm"),
    ("value", .string address)]

/-- jsoncpp on these texts. -/
def gatewayLibraries : Libraries where
  parse text :=
    if text = createdText then some (.object (reingw.command "reingw").fields)
    else if text = changedText "10.0.0.1" then some (.object (changedFields "10.0.0.1"))
    else if text = changedText "10.0.0.2" then some (.object (changedFields "10.0.0.2"))
    else none
  toStyledString _ := ""
  sqlite3Exec _ table := some table

theorem createdText_isText : IsText gatewayLibraries createdText (reingw.command "reingw") where
  braces := by decide +kernel
  parsed := by
    refine ⟨.object (reingw.command "reingw").fields, ?_, rfl, ?_⟩
    · have plain : cStr createdText = createdText := by decide +kernel
      simp [Libraries.read, gatewayLibraries, plain]
    · simp [GatewayValues.command, TcpCommand.fields, Json.field, lookup_member]
  inRange := trivial

theorem changedText_setsParameter {address : String} (known : address = "10.0.0.1" ∨ address = "10.0.0.2") :
    SetsParameter gatewayLibraries (changedText address) "reingw" .realm "realm" address .null where
  parsed := by
    refine ⟨.object (changedFields address), ?_, rfl, ?_, ?_⟩
    · obtain rfl | rfl := known
      · have plain : cStr (changedText "10.0.0.1") = changedText "10.0.0.1" := by decide +kernel
        have other : changedText "10.0.0.1" ≠ createdText := by decide +kernel
        simp [Libraries.read, gatewayLibraries, plain, other]
      · have plain : cStr (changedText "10.0.0.2") = changedText "10.0.0.2" := by decide +kernel
        have other : changedText "10.0.0.2" ≠ createdText := by decide +kernel
        have address : changedText "10.0.0.2" ≠ changedText "10.0.0.1" := by decide +kernel
        simp [Libraries.read, gatewayLibraries, plain, other, address]
    · simp [changedFields, Json.field, lookup_member]
    · simp [changedFields, Json.field, lookup_member]
  named := rfl

/-- The default directory; its paths are no XML, and all can be written. -/
def defaultHost : XmlHost where
  fsxmlpath := "/usr/local/freeswitch/conf/sip_profiles/external/"
  load _ := none
  writable _ := true

theorem defaultHost_readsMarkup : ReadsMarkup defaultHost where
  directory := by simp [defaultHost]
  within _ _ read := by cases read

/-- The realm is set to what it is. -/
theorem editAgrees_same_realm :
    EditAgrees gatewayLibraries defaultHost ∅ {} createdText (changedText "10.0.0.1") "reingw" reingw .realm
      "10.0.0.1" :=
  (editAgrees_iff createdText_isText (changedText_setsParameter (.inl rfl)) defaultHost
    defaultHost_readsMarkup ∅ {}).mpr ⟨"", rfl, fun _ => ⟨ite_self none, rfl⟩⟩

/-- A new realm never reaches the file. -/
theorem new_realm_lost :
    ¬ EditAgrees gatewayLibraries defaultHost ∅ {} createdText (changedText "10.0.0.2") "reingw" reingw .realm
      "10.0.0.2" := by
  rintro ⟨after, done, same⟩
  rw [carryOutAll_edit createdText_isText (changedText_setsParameter (.inr rfl))] at done
  obtain rfl := Except.ok.inj done
  have leftAlone : rewritten defaultHost "reingw" "" = none := ite_self none
  rw [filesAfter_edit, filesAfter_create, leftAlone] at same
  have values := (document_set_eq_iff "reingw" reingw .realm "10.0.0.2").mp (Option.some.inj same)
  revert values
  decide +kernel

end CallCenter.Verified
