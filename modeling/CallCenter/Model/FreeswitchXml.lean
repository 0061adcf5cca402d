import CallCenter.Model.TcpServer

/-!
# FreeSWITCH's configuration files

`FreeswitchXmlCtl` of `CalloutManager.cpp`, on the files it writes.  A file is the document that pugixml
reads from it, so what is saved is what is loaded later.  A handle of a node or an attribute that is
absent changes nothing.
-/

namespace CallCenter.Model

open Std (ExtTreeMap)

/-- An element of a `pugi::xml_document`. -/
inductive XmlNode where
  | element (name : String) (attributes : List (String × String)) (children : List XmlNode)

abbrev XmlDocument := List XmlNode

namespace XmlNode

def name : XmlNode → String
  | element name _ _ => name

/-- The first of some nodes with a property, changed; without one the nodes are as they were. -/
def editFirst (found : XmlNode → Bool) (edit : XmlNode → XmlNode) : List XmlNode → List XmlNode
  | [] => []
  | node :: rest => if found node then edit node :: rest else node :: editFirst found edit rest

/-- What is done to `node.child(childName)`. -/
def editChild (childName : String) (edit : XmlNode → XmlNode) : XmlNode → XmlNode
  | element name attributes children =>
    element name attributes (editFirst (fun child => child.name == childName) edit children)

/-- What is done to `node.first_child()`. -/
def editFirstChild (edit : XmlNode → XmlNode) : XmlNode → XmlNode
  | element name attributes children => element name attributes (editFirst (fun _ => true) edit children)

def assignAttribute (key value : String) : List (String × String) → List (String × String)
  | [] => []
  | (name, old) :: rest =>
    if name = key then (name, value) :: rest else (name, old) :: assignAttribute key value rest

/-- `node.attribute(key).set_value(value.c_str())`. -/
def setAttribute (key value : String) : XmlNode → XmlNode
  | element name attributes children => element name (assignAttribute key (cStr value) attributes) children

end XmlNode

/-- What is done to `xdoc.child(childName)`. -/
def editDocument (childName : String) (edit : XmlNode → XmlNode) (xdoc : XmlDocument) : XmlDocument :=
  XmlNode.editFirst (fun node => node.name == childName) edit xdoc

/-- The host: the directory of the gateways, pugixml's reading of a text (`none` where its status is not
ok), and the paths that can be opened for writing. -/
structure XmlHost where
  fsxmlpath : String
  load : String → Option XmlDocument
  writable : String → Bool

/-- The files by their paths. -/
abbrev XmlFiles := ExtTreeMap String XmlDocument

namespace XmlHost

/-- `xdoc.save_file(path.c_str(), ..)`. -/
def saveFile (host : XmlHost) (path : String) (xdoc : XmlDocument) (files : XmlFiles) : XmlFiles :=
  if host.writable (cStr path) then files.insert (cStr path) xdoc else files

/-- An element `param` or `variable` with the attributes `name` and `value`. -/
def named (element name value : String) : XmlNode :=
  .element element [("name", name), ("value", cStr value)] []

/-- The document `Creategata` builds. -/
def gatewayDocument (name realm proxy expirese username password strregister : String) : XmlDocument :=
  [.element "include" []
    [.element "gateway" [("name", cStr name)]
      [named "param" "realm" realm, named "param" "proxy" proxy, named "param" "expire-seconds" expirese,
       named "param" "username" username, named "param" "password" password,
       named "param" "register" strregister]]]

/-- The file of a gateway. -/
def gatewayPath (host : XmlHost) (name : String) : String := host.fsxmlpath ++ name ++ ".xml"

def creategata (host : XmlHost) (name realm proxy expirese username password strregister : String)
    (files : XmlFiles) : XmlFiles :=
  host.saveFile (host.gatewayPath name)
    (gatewayDocument name realm proxy expirese username password strregister) files

/-- The edit of `Setgataxml`. -/
def editGateway (name param strvalue : String) (xdoc : XmlDocument) : XmlDocument :=
  if param = "register" then
    editDocument "include" (XmlNode.editChild "register" (XmlNode.setAttribute "vaule" strvalue)) xdoc
  else
    editDocument "include" (XmlNode.editChild (cStr name)
      (XmlNode.editChild (cStr param) (XmlNode.setAttribute "vaule" strvalue))) xdoc

/-- `Setgataxml`: the text that is read is the path itself, not the file there. -/
def setgataxml (host : XmlHost) (name param strvalue : String) (files : XmlFiles) : XmlFiles :=
  let fullpath := host.gatewayPath name
  match host.load (cStr fullpath) with
  | some xdoc => host.saveFile fullpath (editGateway name param strvalue xdoc) files
  | none => files

/-- The file of an extension. -/
def directoryPath (dnnumber : String) : String :=
  "/usr/local/freeswitch/conf/directory/default/" ++ dnnumber ++ ".xml"

/-- The document `CreateDNxml` builds, with this password. -/
def directoryDocument (dnnumber password : String) : XmlDocument :=
  [.element "include" []
    [.element "user" []
      [.element "params" [] [named "param" "password" password, named "param" "vm-password" dnnumber],
       .element "variables" []
        [named "variable" "toll_allow" "domestic,international,local",
         named "variable" "accountcode" dnnumber,
         named "variable" "user_context" "default",
         named "variable" "effective_caller_id_name" ("Extension " ++ dnnumber),
         named "variable" "effective_caller_id_number" dnnumber,
         named "variable" "outbound_caller_id_name" "$$\x7boutbound_caller_name\x7d",
         named "variable" "outbound_caller_id_number" "$$\x7boutbound_caller_id\x7d",
         named "variable" "callgroup" "techsupport"]]]]

def createDNxml (host : XmlHost) (dnnumber : String) (files : XmlFiles) : XmlFiles :=
  host.saveFile (directoryPath dnnumber) (directoryDocument dnnumber "$$\x7bdefault_password\x7d") files

/-- `SetDNpasswd` reads the file. -/
def setDNpasswd (host : XmlHost) (dnnumber password : String) (files : XmlFiles) : XmlFiles :=
  let fullpath := directoryPath dnnumber
  match files[cStr fullpath]? with
  | some xdoc =>
    host.saveFile fullpath
      (editDocument "include" (XmlNode.editChild "user" (XmlNode.editChild "params"
        (XmlNode.editFirstChild (XmlNode.setAttribute "value" password)))) xdoc) files
  | none => files

/-- What a call does to the files. -/
def perform (host : XmlHost) (files : XmlFiles) : FreeswitchXmlCall → XmlFiles
  | .creategata name realm proxy expirese username password strregister =>
    host.creategata name realm proxy expirese username password strregister files
  | .setgataxml name param strvalue => host.setgataxml name param strvalue files
  | .createDNxml dnnumber => host.createDNxml dnnumber files
  | .setDNpasswd dnnumber password => host.setDNpasswd dnnumber password files

end XmlHost

end CallCenter.Model
