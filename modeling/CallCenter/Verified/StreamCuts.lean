import CallCenter.Verified.CommandServers
import CallCenter.Verified.Restoration

/-!
# Commands and the cuts of their stream

`Ondata` takes what one read of the socket delivers for one command.  Commands that arrive one to a
read are each carried out once; but a stream may be cut elsewhere, and then it is not.
-/

namespace CallCenter.Verified

open CallCenter.Foundation CallCenter.Foundation.Outcomes CallCenter.Model

/-- A command with its parameters; `target` is the text `SetFSxml` takes for the gateway's name. -/
inductive TcpCommand where
  | createTask (companyid taskid : String)
  | setCallrate (companyid taskid : String) (rate : Int)
  | createFSxml (name realm proxy expirese username password strregister : String)
  | setFSxml (name target param strvalue : String)
  | createDNxml (dnnumber : String)
  | setDNpasswd (dnnumber passwd : String)
  deriving DecidableEq, Repr

namespace TcpCommand

/-- The members of the command's object. -/
def fields : TcpCommand → List (String × Json)
  | createTask companyid taskid =>
    [("cmd", .string "CreateTask"), ("companyID", .string companyid), ("taskID", .string taskid)]
  | setCallrate companyid taskid rate =>
    [("cmd", .string "SetCallrate"), ("companyID", .string companyid), ("taskID", .string taskid), ("rate", .int rate)]
  | createFSxml name realm proxy expirese username password strregister =>
    [("cmd", .string "CreateFSxml"), ("name", .string name), ("realm", .string realm), ("proxy", .string proxy),
     ("expirese", .string expirese), ("username", .string username), ("password", .string password),
     ("register", .string strregister)]
  | setFSxml name target param strvalue =>
    [("cmd", .string "SetFSxml"), ("name", .string name), ("root", .string target), ("param", .string param),
     ("value", .string strvalue)]
  | createDNxml dnnumber => [("cmd", .string "CreateDNxml"), ("DNnumber", .string dnnumber)]
  | setDNpasswd dnnumber passwd =>
    [("cmd", .string "SetDNpasswd"), ("DNnumber", .string dnnumber), ("password", .string passwd)]

/-- What the command asks for, done once. -/
def carryOut (manager : CalloutManager) : TcpCommand → CalloutManager
  | createTask companyid taskid => { manager with tasklist := Model.createTask taskid companyid manager.tasklist }
  | setCallrate _ taskid rate => { manager with tasklist := Model.setCallrate taskid rate manager.tasklist }
  | createFSxml name realm proxy expirese username password strregister =>
    manager.callXml (.creategata name realm proxy expirese username password strregister)
  | setFSxml _ target param strvalue => manager.callXml (.setgataxml target param strvalue)
  | createDNxml dnnumber => manager.callXml (.createDNxml dnnumber)
  | setDNpasswd dnnumber passwd => manager.callXml (.setDNpasswd dnnumber passwd)

def status : TcpCommand → String
  | createTask _ _ => "create task successfully "
  | _ => "ok"

/-- The command carried out and answered. -/
def executed (manager : CalloutManager) (command : TcpCommand) : CalloutManager :=
  let carried := command.carryOut manager
  { carried with sent := carried.sent ++ [.ofMembers [("status", .string command.status)]] }

/-- An int of a JSON command is one of C++. -/
def InRange : TcpCommand → Prop
  | setCallrate _ _ rate => Json.inIntRange rate = true
  | _ => True

end TcpCommand

/-- The text of a command: an object with its two braces, and in it the members of the command. -/
structure IsText (lib : Libraries) (text : String) (command : TcpCommand) : Prop where
  braces : 2 ≤ text.toList.length
  parsed : ∃ root, lib.read (cStr text) = .ok (some root) ∧ root.hasMembers = true ∧
    ∀ member ∈ command.fields, root.field member.1 = member.2
  inRange : command.InRange

/-- The calls of `Ondata` that deliver the pieces of a stream. -/
def deliver (lib : Libraries) (pieces : List String) (manager : CalloutManager) : Except Fault CalloutManager :=
  pieces.foldlM (fun manager data => manager.ondata lib data) manager

/-- The pieces are the stream of the texts, cut into reads that each deliver something. -/
structure Cuts (pieces texts : List String) : Prop where
  nonempty : ∀ piece ∈ pieces, piece.toList ≠ []
  stream : (pieces.map String.toList).flatten = (texts.map String.toList).flatten

/-- However the stream is cut, the commands are each carried out and answered once. -/
def CutIndependent (lib : Libraries) (manager : CalloutManager) (texts : List String)
    (commands : List TcpCommand) :
    Prop :=
  ∀ pieces, Cuts pieces texts → deliver lib pieces manager = .ok (commands.foldl TcpCommand.executed manager)

/-! ## One read -/

/-- The outcome, if there is one, is a server that sent what the server before had sent. -/
def SendsNothing (manager : CalloutManager) (outcome : Except Fault (String × CalloutManager)) : Prop :=
  ∀ strmsg after, outcome = .ok (strmsg, after) → after.sent = manager.sent

theorem sendsNothing_bind {manager : CalloutManager} {Value : Type} {first : Except Fault Value}
    {next : Value → Except Fault (String × CalloutManager)}
    (each : ∀ value, SendsNothing manager (next value)) :
    SendsNothing manager (first >>= next) := by
  intro strmsg after done
  cases first with
  | error fault => contradiction
  | ok value => exact each value strmsg after done

theorem sendsNothing_pure {manager after : CalloutManager} (strmsg : String)
    (same : after.sent = manager.sent) :
    SendsNothing manager (pure (strmsg, after)) := by
  rintro _ _ ⟨⟩
  exact same

theorem sendsNothing_branch (root : Json) (manager : CalloutManager) (command : CalloutManager.Command) :
    SendsNothing manager (CalloutManager.branch root manager command) := by
  cases command with
  | createTask =>
    refine sendsNothing_bind fun companyid => sendsNothing_bind fun taskid => ?_
    cases companyid <;> cases taskid <;> exact sendsNothing_pure _ rfl
  | setCallrate =>
    refine sendsNothing_bind fun companyid => sendsNothing_bind fun taskid => sendsNothing_bind fun rate => ?_
    cases companyid <;> cases taskid <;> cases rate <;> exact sendsNothing_pure _ rfl
  | createFSxml =>
    refine sendsNothing_bind fun _ => sendsNothing_bind fun _ => sendsNothing_bind fun _ => sendsNothing_bind fun _ =>
      sendsNothing_bind fun _ => sendsNothing_bind fun _ => sendsNothing_bind fun _ => ?_
    split <;> exact sendsNothing_pure _ rfl
  | setFSxml =>
    refine sendsNothing_bind fun name => sendsNothing_bind fun param => sendsNothing_bind fun strvalue => ?_
    cases name <;> cases param <;> cases strvalue <;> try exact sendsNothing_pure _ rfl
    exact sendsNothing_bind fun _ => sendsNothing_bind fun _ => sendsNothing_pure _ rfl
  | createDNxml =>
    refine sendsNothing_bind fun dnnumber => ?_
    cases dnnumber <;> exact sendsNothing_pure _ rfl
  | setDNpasswd =>
    refine sendsNothing_bind fun dnnumber => sendsNothing_bind fun passwd => ?_
    cases dnnumber <;> cases passwd <;> exact sendsNothing_pure _ rfl

theorem sendsNothing_onCommand (lib : Libraries) (data : String) (manager : CalloutManager) :
    SendsNothing manager (manager.onCommand lib data) := by
  refine sendsNothing_bind fun parsed => ?_
  cases parsed with
  | none => exact sendsNothing_pure _ rfl
  | some root =>
    refine sendsNothing_bind fun strcmd => ?_
    cases strcmd with
    | none => exact sendsNothing_pure _ rfl
    | some strcmd =>
      dsimp only
      split
      · exact sendsNothing_branch root manager _
      · exact sendsNothing_pure _ rfl

theorem sent_deletetask {manager after : CalloutManager} (done : manager.deletetask = .ok after) :
    after.sent = manager.sent := by
  simp only [CalloutManager.deletetask] at done
  cases cleaned : CalloutManager.deletetaskFrom [] manager.deleted manager.tasklist with
  | error fault => simp [cleaned, bind, Except.bind] at done
  | ok lists =>
    simp only [cleaned, bind, Except.bind] at done
    obtain rfl := Except.ok.inj done
    rfl

theorem sent_ondata {lib : Libraries} {data : String} {manager after : CalloutManager}
    (done : manager.ondata lib data = .ok after) : after.sent.length = manager.sent.length + 1 := by
  simp only [CalloutManager.ondata, CalloutManager.onMsg] at done
  cases cleaned : manager.deletetask with
  | error fault => simp [cleaned, bind, Except.bind] at done
  | ok cleanedUp =>
    simp only [cleaned, bind, Except.bind] at done
    cases answered : cleanedUp.onCommand lib data with
    | error fault => simp [answered] at done
    | ok outcome =>
      obtain ⟨strmsg, answeredBy⟩ := outcome
      simp only [answered] at done
      obtain rfl := Except.ok.inj done
      have kept := sendsNothing_onCommand lib data cleanedUp strmsg answeredBy answered
      simp [kept, sent_deletetask cleaned]

/-- A stream delivered in some pieces is answered that many times. -/
theorem sent_deliver {lib : Libraries} {pieces : List String} {manager after : CalloutManager}
    (done : deliver lib pieces manager = .ok after) :
    after.sent.length = manager.sent.length + pieces.length := by
  induction pieces generalizing manager with
  | nil =>
    obtain rfl := Except.ok.inj done
    rfl
  | cons piece pieces inductionHypothesis =>
    rw [deliver, List.foldlM_cons] at done
    cases first : manager.ondata lib piece with
    | error fault => simp [first, bind, Except.bind] at done
    | ok middle =>
      simp only [first, bind, Except.bind] at done
      rw [inductionHypothesis done, sent_ondata first, List.length_cons]
      omega

/-! ## One command -/

theorem deletetask_of_running {manager : CalloutManager}
    (running : ∀ task ∈ manager.tasklist, task.stand ≠ .finish) :
    manager.deletetask = .ok manager := by
  have kept : ∀ (tasks passed deleted : List CallTask), (∀ task ∈ tasks, task.stand ≠ .finish) →
      CalloutManager.deletetaskFrom passed deleted tasks = .ok (passed ++ tasks, deleted) := by
    intro tasks
    induction tasks with
    | nil => simp [CalloutManager.deletetaskFrom]
    | cons task tasks inductionHypothesis =>
      intro passed deleted running
      rw [deletetaskFrom_running (running task List.mem_cons_self),
        inductionHypothesis _ _ fun other member => running other (List.mem_cons_of_mem _ member)]
      simp
  rw [CalloutManager.deletetask, kept manager.tasklist [] manager.deleted running]
  rfl

theorem onCommand_of_isText {lib : Libraries} {text : String} {command : TcpCommand}
    (isText : IsText lib text command) (manager : CalloutManager) :
    manager.onCommand lib text = .ok (command.status, command.carryOut manager) := by
  obtain ⟨root, parsed, isObject, members⟩ := isText.parsed
  have inRange := isText.inRange
  simp only [CalloutManager.onCommand, parsed, stringField_eq, isObject, if_true, bind, Except.bind]
  -- in each case the text has the members the branch of its `cmd` asks for
  cases command with
  | createTask companyid taskid =>
    simp only [TcpCommand.fields, List.forall_mem_cons] at members
    obtain ⟨cmd, company, task, -⟩ := members
    simp only [cmd, Json.text?]
    show CalloutManager.createTaskCmd root manager = _
    simp only [CalloutManager.createTaskCmd, stringField_eq, isObject, if_true, company, task, Json.text?]
    rfl
  | setCallrate companyid taskid rate =>
    simp only [TcpCommand.fields, List.forall_mem_cons] at members
    obtain ⟨cmd, company, task, rateGiven, -⟩ := members
    simp only [cmd, Json.text?]
    show CalloutManager.setCallrateCmd root manager = _
    have inRange : Json.inIntRange rate = true := inRange
    simp only [CalloutManager.setCallrateCmd, stringField_eq, intField_eq, isObject, if_true, company, task,
      rateGiven, Json.text?, Json.int?, inRange]
    rfl
  | createFSxml name realm proxy expirese username password strregister =>
    simp only [TcpCommand.fields, List.forall_mem_cons] at members
    obtain ⟨cmd, name, realm, proxy, expirese, username, password, strregister, -⟩ := members
    simp only [cmd, Json.text?]
    show CalloutManager.createFSxmlCmd root manager = _
    simp only [CalloutManager.createFSxmlCmd, stringField_eq, isObject, if_true, name, realm, proxy, expirese,
      username, password, strregister, Json.text?]
    rfl
  | setFSxml name target param strvalue =>
    simp only [TcpCommand.fields, List.forall_mem_cons] at members
    obtain ⟨cmd, name, target, param, strvalue, -⟩ := members
    simp only [cmd, Json.text?]
    show CalloutManager.setFSxmlCmd root manager = _
    simp only [CalloutManager.setFSxmlCmd, stringField_eq, Json.member_eq, isObject, if_true, name,
      target, param,
      strvalue, Json.text?]
    rfl
  | createDNxml dnnumber =>
    simp only [TcpCommand.fields, List.forall_mem_cons] at members
    obtain ⟨cmd, dnnumber, -⟩ := members
    simp only [cmd, Json.text?]
    show CalloutManager.createDNxmlCmd root manager = _
    simp only [CalloutManager.createDNxmlCmd, stringField_eq, isObject, if_true, dnnumber, Json.text?]
    rfl
  | setDNpasswd dnnumber passwd =>
    simp only [TcpCommand.fields, List.forall_mem_cons] at members
    obtain ⟨cmd, dnnumber, passwd, -⟩ := members
    simp only [cmd, Json.text?]
    show CalloutManager.setDNpasswdCmd root manager = _
    simp only [CalloutManager.setDNpasswdCmd, stringField_eq, isObject, if_true, dnnumber, passwd, Json.text?]
    rfl

/-- A read that is the text of a command carries it out and answers it. -/
theorem ondata_of_isText {lib : Libraries} {text : String} {command : TcpCommand} {manager : CalloutManager}
    (isText : IsText lib text command) (running : ∀ task ∈ manager.tasklist, task.stand ≠ .finish) :
    manager.ondata lib text = .ok (TcpCommand.executed manager command) := by
  simp only [CalloutManager.ondata, CalloutManager.onMsg, deletetask_of_running running, bind, Except.bind,
    onCommand_of_isText isText]
  rfl

theorem running_executed {manager : CalloutManager} (running : ∀ task ∈ manager.tasklist, task.stand ≠ .finish)
    (command : TcpCommand) : ∀ task ∈ (TcpCommand.executed manager command).tasklist, task.stand ≠ .finish := by
  intro task member
  cases command with
  | createTask companyid taskid =>
    rcases List.mem_append.mp member with old | new
    · exact running task old
    · obtain rfl := List.mem_singleton.mp new
      simp
  | setCallrate companyid taskid rate =>
    obtain ⟨old, memberOld, rfl⟩ := List.mem_map.mp member
    have stands := running old memberOld
    split <;> exact stands
  | _ => exact running task member

/-- Texts that arrive one to a read are each carried out once, in their order. -/
theorem deliver_texts {lib : Libraries} {texts : List String} {commands : List TcpCommand}
    (areTexts : List.Forall₂ (IsText lib) texts commands) {manager : CalloutManager}
    (running : ∀ task ∈ manager.tasklist, task.stand ≠ .finish) :
    deliver lib texts manager = .ok (commands.foldl TcpCommand.executed manager) := by
  induction areTexts generalizing manager with
  | nil => rfl
  | cons isText _ inductionHypothesis =>
    rw [deliver, List.foldlM_cons, ondata_of_isText isText running]
    exact inductionHypothesis (running_executed running _)

/-! ## The cuts -/

/-- A stream of at least two characters can be delivered in one read or in two. -/
theorem two_cuts {texts : List String} {text : String} (member : text ∈ texts)
    (braces : 2 ≤ text.toList.length) :
    ∃ whole first rest, Cuts [whole] texts ∧ Cuts [first, rest] texts := by
  have long : 2 ≤ (texts.map String.toList).flatten.length := by
    -- the text is a part of the stream, and has its two braces
    have part : text.toList.Sublist (texts.map String.toList).flatten :=
      List.sublist_flatten_of_mem (List.mem_map_of_mem member)
    exact braces.trans part.length_le
  cases stream : (texts.map String.toList).flatten with
  | nil => simp [stream] at long
  | cons first rest => cases rest with
    | nil => simp [stream] at long
    | cons second more =>
      refine ⟨.ofList (first :: second :: more), .ofList [first], .ofList (second :: more), ⟨?_, ?_⟩, ⟨?_, ?_⟩⟩
      · simp
      · simp [stream]
      · simp
      · simp [stream]

/-- Commands that arrive one to a read are each carried out and answered once; but where the cuts fall
makes no difference only for the stream of no command. -/
theorem cutIndependent_iff (lib : Libraries) (manager : CalloutManager) (texts : List String)
    (commands : List TcpCommand) (areTexts : List.Forall₂ (IsText lib) texts commands) :
    (CutIndependent lib manager texts commands ↔ texts = []) ∧
      ((∀ task ∈ manager.tasklist, task.stand ≠ .finish) →
        deliver lib texts manager = .ok (commands.foldl TcpCommand.executed manager)) := by
  refine ⟨⟨?onlyEmpty, ?empty⟩, deliver_texts areTexts⟩
  case onlyEmpty =>
    intro independent
    cases areTexts with
    | nil => rfl
    | cons isText _ =>
      -- One read is answered once, two reads are answered twice.
      obtain ⟨whole, first, rest, oneRead, twoReads⟩ := two_cuts List.mem_cons_self isText.braces
      have once := sent_deliver (independent _ oneRead)
      have twice := sent_deliver (independent _ twoReads)
      simp only [List.length_cons, List.length_nil] at once twice
      omega
  case empty =>
    rintro rfl
    cases areTexts
    rintro pieces ⟨nonempty, stream⟩
    cases pieces with
    | nil => rfl
    | cons piece pieces =>
      simp only [List.map_cons, List.flatten_cons, List.map_nil, List.flatten_nil,
        List.append_eq_nil_iff] at stream
      exact absurd stream.1 (nonempty piece List.mem_cons_self)

def createText : String :=
  "\x7b\x22cmd\x22:\x22CreateTask\x22,\x22companyID\x22:\x221\x22,\x22taskID\x22:\x227\x22\x7d"

/-- A parser that knows this text. -/
def createLibraries : Libraries where
  parse text :=
    if text = createText then
      some (.object [("cmd", .string "CreateTask"), ("companyID", .string "1"), ("taskID", .string "7")])
    else none
  toStyledString _ := ""
  sqlite3Exec _ table := some table

theorem createText_isText : IsText createLibraries createText (.createTask "1" "7") where
  braces := by decide +kernel
  parsed := by
    refine ⟨.object [("cmd", .string "CreateTask"), ("companyID", .string "1"), ("taskID", .string "7")], ?_, rfl, ?_⟩
    · have plain : cStr createText = createText := by decide +kernel
      simp [Libraries.read, createLibraries, plain]
    · simp [TcpCommand.fields, Json.field, lookup_member]
  inRange := trivial

/-- The task is created and created again where each read holds one command, and not so where the same
stream is cut elsewhere. -/
theorem cutIndependent_iff_create :
    deliver createLibraries [createText, createText] {} =
        .ok (TcpCommand.executed (TcpCommand.executed {} (.createTask "1" "7")) (.createTask "1" "7")) ∧
      ¬ CutIndependent createLibraries {} [createText, createText] [.createTask "1" "7", .createTask "1" "7"] := by
  obtain ⟨independent, delivered⟩ := cutIndependent_iff createLibraries {} [createText, createText]
    [.createTask "1" "7", .createTask "1" "7"] (.cons createText_isText (.cons createText_isText .nil))
  exact ⟨delivered (by simp), fun all => List.cons_ne_nil _ _ (independent.mp all)⟩

/-- The command in two reads creates none. -/
theorem split_command_lost :
    ¬ ∀ (lib : Libraries) (manager : CalloutManager) (texts : List String) (commands : List TcpCommand),
      List.Forall₂ (IsText lib) texts commands → CutIndependent lib manager texts commands := by
  intro claim
  have independent := claim createLibraries {} [createText] [.createTask "1" "7"] (.cons createText_isText .nil)
  have delivered := independent [.ofList (createText.toList.take 9), .ofList (createText.toList.drop 9)]
    ⟨by decide +kernel, by decide +kernel⟩
  have tasks : ((deliver createLibraries
      [.ofList (createText.toList.take 9), .ofList (createText.toList.drop 9)] {}).toOption.map
      fun manager => manager.tasklist.length) = some 1 := by
    rw [delivered]
    rfl
  revert tasks
  decide +kernel

end CallCenter.Verified
