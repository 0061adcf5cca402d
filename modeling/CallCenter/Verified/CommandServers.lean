import CallCenter.Foundation.Outcomes
import CallCenter.Model.TcpServer
import CallCenter.Verified.ClientRequests
import CallCenter.Verified.IvrLoading
import Mathlib.Data.List.DropRight

/-!
# What the command servers survive

Both handlers check the fields they read, but not everything they read them from: what a message
must look like so that no accessor of jsoncpp is used outside its precondition, branch by branch.
-/

namespace CallCenter.Verified

open CallCenter.Foundation CallCenter.Foundation.Outcomes CallCenter.Model
open CallCenter.Verified.IvrLoading (ScriptsReadable isOk_initivrflow_iff)

/-! ## The WebSocket server -/

theorem isOk_reloaddb_iff {lib : Libraries} {answers : DatabaseAnswers} {manager : ManagerDN} :
    (manager.reloaddb lib answers).isOk = true ↔ ScriptsReadable lib answers.nodes.rows := by
  rw [← isOk_initivrflow_iff]
  simp only [ManagerDN.reloaddb, isOk_bind_iff, isOk_pure, and_true]
  rw [← isOk_iff]

/-- A `param` the branch of an action can read. -/
def ParamReadable (lib : Libraries) (message : ClientMessage) (param : Json) : WsapAction → Prop
  | .resetConfig => param.hasMembers = true ∧
      ((param.field "acdpassword").text?.isSome = true → ScriptsReadable lib message.reload.nodes.rows)
  | .setAgentStatus => param.hasMembers = true ∧
      ((param.field "userId").text?.isSome = true → (param.field "state").text?.isSome = true →
        (param.field "agentStatus").convertsToInt = true)
  | .signIn | .signOut | .getusers | .reset | .outboundCall | .heartbeat => param.hasMembers = true
  | _ => True

/-- A WebSocket message `on_callapclient` can read. -/
def MessageReadable (lib : Libraries) (message : ClientMessage) : Prop :=
  lib.exceedsStackLimit message.payload = false ∧
    ∀ root, lib.parse message.payload = some root → root.hasMembers = true ∧
      ∀ action, (root.field "action").text? = some action → root.field "param" ≠ .null →
        ParamReadable lib message (root.field "param") (getcmdType action)

section Branches

open WSapserver

variable (lib : Libraries) (message : ClientMessage) (param : Json) (manager : ManagerDN)

theorem isOk_resetConfig_iff : (resetConfig lib message param manager).isOk = true ↔
    ParamReadable lib message param .resetConfig := by
  simp only [resetConfig, stringField_eq, ParamReadable]
  cases param.hasMembers with
  | false => simp [bind, Except.bind]
  | true =>
    simp only [if_true, bind, Except.bind, true_and]
    cases (param.field "acdpassword").text? with
    | none => simp
    | some acdpassword =>
      simp only [Option.isSome_some, true_implies]
      rw [← @isOk_reloaddb_iff lib message.reload manager]
      cases manager.reloaddb lib message.reload <;> simp

theorem isOk_signIn_iff : (signIn lib message param manager).isOk = true ↔ param.hasMembers = true := by
  simp only [signIn, stringField_eq]
  cases param.hasMembers with
  | false => simp [bind, Except.bind]
  | true =>
    simp only [if_true, bind, Except.bind, iff_true]
    cases (param.field "userId").text? with
    | none => rfl
    | some userId => cases (param.field "password").text? with
      | none => rfl
      | some password =>
        dsimp only
        cases getJavaUserInfo (message.users userId) with
        | mk found userinfo => cases found <;> rfl

theorem isOk_signOut_iff : (signOut lib message param manager).isOk = true ↔ param.hasMembers = true := by
  simp only [signOut, stringField_eq]
  cases param.hasMembers with
  | false => simp [bind, Except.bind]
  | true =>
    simp only [if_true, bind, Except.bind, iff_true]
    cases (param.field "userId").text? <;> rfl

theorem isOk_setAgentStatus_iff : (setAgentStatus lib message param manager).isOk = true ↔
    ParamReadable lib message param .setAgentStatus := by
  simp only [setAgentStatus, stringField_eq, Json.member_eq, ParamReadable, ← Json.isOk_asInt]
  cases param.hasMembers with
  | false => simp [bind, Except.bind]
  | true =>
    simp only [if_true, bind, Except.bind, true_and]
    cases (param.field "userId").text? with
    | none => simp
    | some userId => cases (param.field "state").text? with
      | none => simp
      | some status => cases (param.field "agentStatus").asInt <;> simp

theorem isOk_getusers_iff : (getusers message param manager).isOk = true ↔ param.hasMembers = true := by
  simp only [getusers, stringField_eq]
  cases param.hasMembers with
  | false => simp [bind, Except.bind]
  | true =>
    simp only [if_true, bind, Except.bind, iff_true]
    cases (param.field "userId").text? with
    | none => rfl
    | some userId => cases (param.field "state").text? with
      | none => rfl
      | some status => cases (param.field "department").text? <;> rfl

theorem isOk_reset_iff : (reset message param manager).isOk = true ↔ param.hasMembers = true := by
  simp only [reset, stringField_eq]
  cases param.hasMembers with
  | false => simp [bind, Except.bind]
  | true =>
    simp only [if_true, bind, Except.bind, iff_true]
    cases (param.field "userId").text? with
    | none => rfl
    | some userId =>
      dsimp only
      cases getJavaUserInfo (message.users userId) with
      | mk found userinfo => cases found <;> rfl

theorem isOk_heartbeat_iff : (heartbeat message param manager).isOk = true ↔ param.hasMembers = true := by
  simp only [heartbeat, stringField_eq]
  cases param.hasMembers with
  | false => simp [bind, Except.bind]
  | true =>
    simp only [if_true, bind, Except.bind, iff_true]
    cases (param.field "userId").text? <;> rfl

theorem isOk_outboundCall_iff : (outboundCall message param manager).isOk = true ↔ param.hasMembers = true := by
  rw [← isOk_heartbeat_iff message param manager]
  simp only [outboundCall, heartbeat, stringField_eq]
  cases param.hasMembers with
  | false => simp [bind, Except.bind]
  | true =>
    simp only [if_true, bind, Except.bind]
    cases (param.field "userId").text? <;> rfl

theorem isOk_perform_iff (action : WsapAction) : (perform lib message param manager action).isOk = true ↔
    ParamReadable lib message param action := by
  cases action with
  | resetConfig => exact isOk_resetConfig_iff lib message param manager
  | signIn => exact isOk_signIn_iff lib message param manager
  | signOut => exact isOk_signOut_iff lib message param manager
  | setAgentStatus => exact isOk_setAgentStatus_iff lib message param manager
  | getusers => exact isOk_getusers_iff message param manager
  | reset => exact isOk_reset_iff message param manager
  | outboundCall => exact isOk_outboundCall_iff message param manager
  | heartbeat => exact isOk_heartbeat_iff message param manager
  | _ => simp [perform, ParamReadable]

theorem isOk_onCallapclient_iff :
    (onCallapclient lib message manager).isOk = true ↔ MessageReadable lib message := by
  simp only [onCallapclient, Libraries.read, MessageReadable, stringField_eq, Json.member_eq]
  cases lib.exceedsStackLimit message.payload with
  | true => simp [bind, Except.bind]
  | false =>
    simp only [Bool.false_eq_true, if_false, bind, Except.bind, true_and]
    cases lib.parse message.payload with
    | none => simp
    | some root =>
      simp only [Option.some.injEq, forall_eq']
      cases root.hasMembers with
      | false => simp
      | true =>
        simp only [if_true, true_and]
        cases (root.field "action").text? with
        | none => simp
        | some action =>
          simp only [Option.some.injEq, forall_eq']
          cases root.field "param" with
          | null => simp
          | _ => simp [isOk_perform_iff]

end Branches

/-! ## The TCP server -/

/-- How many tasks at the end of the list are finished. -/
def finishedTail (tasklist : List CallTask) : Nat :=
  (tasklist.rtakeWhile fun task => task.stand = .finish).length

/-- The list is one finished task, or an even number of finished tasks ends it. -/
def ListInBounds (tasklist : List CallTask) : Prop :=
  finishedTail tasklist % 2 = 0 ∨ tasklist.length = 1

theorem finishedTail_cons (task : CallTask) (ahead : List CallTask) : finishedTail (task :: ahead) =
    if finishedTail ahead = ahead.length ∧ task.stand = .finish then ahead.length + 1
    else finishedTail ahead := by
  simp only [finishedTail, List.rtakeWhile, List.reverse_cons, List.length_reverse, List.takeWhile_append]
  -- the first task belongs to the finished tail only when everything behind it does
  by_cases all : (ahead.reverse.takeWhile fun task => task.stand = .finish).length = ahead.reverse.length
  · by_cases finished : task.stand = .finish <;> simp_all
  · simp_all

theorem finishedTail_le (tasklist : List CallTask) : finishedTail tasklist ≤ tasklist.length := by
  simp only [finishedTail, List.rtakeWhile, List.length_reverse]
  exact (List.takeWhile_sublist _).length_le.trans_eq List.length_reverse

theorem deletetaskFrom_running {task : CallTask} (running : task.stand ≠ .finish)
    (passed deleted ahead : List CallTask) :
    CalloutManager.deletetaskFrom passed deleted (task :: ahead) =
      CalloutManager.deletetaskFrom (passed ++ [task]) deleted ahead := by
  rw [CalloutManager.deletetaskFrom.eq_def]
  simp only [running, if_false]

/-- Of a run of finished tasks the loop deletes every other one, so it meets the last task of the list
exactly when the run at the end is odd. -/
theorem isOk_deletetaskFrom_iff (passed deleted : List CallTask) (tasks : List CallTask) :
    (CalloutManager.deletetaskFrom passed deleted tasks).isOk = true ↔
      finishedTail tasks % 2 = 0 ∨ (passed = [] ∧ tasks.length = 1) := by
  induction passed, deleted, tasks using CalloutManager.deletetaskFrom.induct with
  | case1 passed deleted => simp [CalloutManager.deletetaskFrom, finishedTail]
  | case2 deleted task finished => simp [CalloutManager.deletetaskFrom, finished]
  | case3 passed deleted task finished others =>
    have single : finishedTail [task] = 1 := by
      rw [finishedTail_cons]
      simp [finishedTail, finished]
    simp [CalloutManager.deletetaskFrom, finished, others, single]
  | case4 passed deleted task finished unseen ahead inductionHypothesis =>
    have shorter := finishedTail_le ahead
    -- the loop deletes a task and steps past the one behind it: two tasks fewer, the same parity
    have parity : finishedTail (task :: unseen :: ahead) % 2 = finishedTail ahead % 2 := by
      rw [finishedTail_cons, finishedTail_cons, List.length_cons]
      by_cases all : finishedTail ahead = ahead.length ∧ unseen.stand = .finish
      · rw [if_pos all, if_pos ⟨rfl, finished⟩]
        omega
      · rw [if_neg all, if_neg fun whole => by omega]
    simp [CalloutManager.deletetaskFrom, finished, inductionHypothesis, parity]
  | case5 passed deleted task ahead running inductionHypothesis =>
    -- a running task does not lengthen the tail, and it is kept
    have tail : finishedTail (task :: ahead) = finishedTail ahead := by simp [finishedTail_cons, running]
    rw [deletetaskFrom_running running, inductionHypothesis, tail]
    cases ahead with
    | nil => simp [finishedTail]
    | cons next ahead => simp

/-- A command `OnMsg` can read. -/
def CommandReadable (lib : Libraries) (data : String) : Prop :=
  lib.exceedsStackLimit (cStr data) = false ∧
    ∀ root, lib.parse (cStr data) = some root → root.hasMembers = true ∧
      ((root.field "cmd").text? = some "SetFSxml" → (root.field "name").text?.isSome = true →
        (root.field "param").text?.isSome = true → (root.field "value").text?.isSome = true →
        (root.field "root").convertsToString = true)

section Commands

open CalloutManager

variable {root : Json} (isObject : root.hasMembers = true) (manager : CalloutManager)
include isObject

theorem isOk_createTaskCmd : (createTaskCmd root manager).isOk = true := by
  simp only [createTaskCmd, stringField_eq, isObject, if_true, bind, Except.bind]
  split <;> rfl

theorem isOk_setCallrateCmd : (setCallrateCmd root manager).isOk = true := by
  simp only [setCallrateCmd, stringField_eq, intField_eq, isObject, if_true, bind, Except.bind]
  split <;> rfl

theorem isOk_createFSxmlCmd : (createFSxmlCmd root manager).isOk = true := by
  simp only [createFSxmlCmd, stringField_eq, isObject, if_true, bind, Except.bind]
  split <;> rfl

theorem isOk_createDNxmlCmd : (createDNxmlCmd root manager).isOk = true := by
  simp only [createDNxmlCmd, stringField_eq, isObject, if_true, bind, Except.bind]
  split <;> rfl

theorem isOk_setDNpasswdCmd : (setDNpasswdCmd root manager).isOk = true := by
  simp only [setDNpasswdCmd, stringField_eq, isObject, if_true, bind, Except.bind]
  split <;> rfl

theorem isOk_setFSxmlCmd_iff : (setFSxmlCmd root manager).isOk = true ↔
    ((root.field "name").text?.isSome = true → (root.field "param").text?.isSome = true →
      (root.field "value").text?.isSome = true → (root.field "root").convertsToString = true) := by
  simp only [setFSxmlCmd, stringField_eq, Json.member_eq, isObject, if_true, bind, Except.bind,
    ← Json.isOk_asString]
  cases (root.field "name").text? with
  | none => simp
  | some checked => cases (root.field "param").text? with
    | none => simp
    | some param => cases (root.field "value").text? with
      | none => simp
      | some strvalue => cases (root.field "root").asString <;> simp

end Commands

theorem isOk_onCommand_iff (lib : Libraries) (data : String) (manager : CalloutManager) :
    (manager.onCommand lib data).isOk = true ↔ CommandReadable lib data := by
  simp only [CalloutManager.onCommand, Libraries.read, CommandReadable, stringField_eq]
  cases lib.exceedsStackLimit (cStr data) with
  | true => simp [bind, Except.bind]
  | false =>
    simp only [Bool.false_eq_true, if_false, bind, Except.bind, true_and]
    cases lib.parse (cStr data) with
    | none => simp
    | some root =>
      simp only [Option.some.injEq, forall_eq']
      cases isObject : root.hasMembers with
      | false => simp
      | true =>
        simp only [if_true, true_and]
        cases (root.field "cmd").text? with
        | none => simp
        | some strcmd =>
          dsimp only
          -- only `SetFSxml` reads a member it has not checked
          by_cases setsFSxml : strcmd = "SetFSxml"
          · subst setsFSxml
            show (CalloutManager.setFSxmlCmd root manager).isOk = true ↔ _
            rw [isOk_setFSxmlCmd_iff isObject]
            simp
          · simp only [Option.some.injEq, setsFSxml, false_implies, iff_true]
            cases found : CalloutManager.commands.lookup strcmd with
            | none => rfl
            | some command =>
              cases command with
              | createTask => exact isOk_createTaskCmd isObject manager
              | setCallrate => exact isOk_setCallrateCmd isObject manager
              | createFSxml => exact isOk_createFSxmlCmd isObject manager
              | createDNxml => exact isOk_createDNxmlCmd isObject manager
              | setDNpasswd => exact isOk_setDNpasswdCmd isObject manager
              | setFSxml =>
                -- no other word of the table stands for `SetFSxml`
                obtain ⟨before, after, entries, -⟩ := List.lookup_eq_some_iff.mp found
                have member : (strcmd, CalloutManager.Command.setFSxml) ∈ CalloutManager.commands := by
                  simp [entries]
                simp [CalloutManager.commands, setsFSxml] at member

theorem isOk_onMsg_iff (lib : Libraries) (data : String) (manager : CalloutManager) :
    (manager.onMsg lib data).isOk = true ↔ ListInBounds manager.tasklist ∧ CommandReadable lib data := by
  -- `Deletetask` runs first, on the whole list
  have inBounds := isOk_deletetaskFrom_iff [] manager.deleted manager.tasklist
  simp only [true_and] at inBounds
  rw [ListInBounds, ← inBounds]
  simp only [CalloutManager.onMsg, CalloutManager.deletetask]
  cases CalloutManager.deletetaskFrom [] manager.deleted manager.tasklist with
  | error fault => simp [bind, Except.bind]
  | ok cleaned =>
    simp only [isOk_ok, true_and]
    exact isOk_onCommand_iff lib data _

/-- A WebSocket message is survived exactly when it is readable, and a TCP command exactly when it is
readable and `Deletetask` stays inside the task list. -/
theorem servers_survive_iff (lib : Libraries) :
    (∀ (message : ClientMessage) (manager : ManagerDN),
      (WSapserver.onCallapclient lib message manager).isOk = true ↔ MessageReadable lib message) ∧
    (∀ (data : String) (manager : CalloutManager),
      (manager.onMsg lib data).isOk = true ↔ ListInBounds manager.tasklist ∧ CommandReadable lib data) :=
  ⟨isOk_onCallapclient_iff lib, isOk_onMsg_iff lib⟩

/-- A logout whose `param` is a string, and a command that is an array. -/
def textParam : String := "\x7b\x22action\x22:\x22logout\x22,\x22param\x22:\x221001\x22\x7d"

def arrayCommand : String := "[]"

/-- A parser that knows these two texts. -/
def carelessLibraries : Libraries where
  parse text :=
    if text = textParam then some (.object [("action", .string "logout"), ("param", .string "1001")])
    else if text = arrayCommand then some (.array [])
    else none
  toStyledString _ := ""
  sqlite3Exec _ table := some table

/-- `jsonparam["userId"]` on a string, and `root["cmd"]` on an array, throw. -/
theorem careless_texts_throw :
    ¬ ∀ (lib : Libraries) (message : ClientMessage) (manager : ManagerDN) (data : String)
      (server : CalloutManager),
      (WSapserver.onCallapclient lib message manager).isOk = true ∧ (server.onMsg lib data).isOk = true := by
  intro survives
  have both := survives carelessLibraries (fromClient textParam) {} arrayCommand {}
  revert both
  decide +kernel

end CallCenter.Verified
