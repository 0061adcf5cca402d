import CallCenter.Verified.CommandServers
import CallCenter.Verified.Restoration

/-!
# One request, one answer

Which requests to the WebSocket server get exactly one response, under the event of their action,
with a result that does not depend on what uninitialised variables hold.
-/

namespace CallCenter.Verified

open CallCenter.Foundation CallCenter.Model
open CallCenter.Model.WSapserver

/-- The response carries the event of the action and the result. -/
structure IsAnswer (action : String) (result : Int) (response : Json) : Prop where
  event : response.member "event" = .ok (.string ("on" ++ action))
  result : response.member "result" = .ok (.int result)

/-- The response forbids the call exactly when `GetPermission` denies the user. -/
def ForbidsAsPermitted (message : ClientMessage) (userId : String) (response : Json) : Prop :=
  ∃ param, response.member "param" = .ok param ∧
    param.member "forbidden" = .ok (.bool (!getPermission (message.roles userId)))

/-- Whatever the handler finds in its storage, it sends one response, and always with the same result. -/
def AnsweredOnce (action : String) (message : ClientMessage) (param : Json)
    (handler : ClientMessage → Except Fault (List Json × ManagerDN)) : Prop :=
  ∃ result, ∀ ambient, ∃ response after, handler { message with ambient } = .ok ([response], after) ∧
    IsAnswer action result response ∧
    ∀ userId, action = "dial" → (param.field "userId").text? = some userId →
      ForbidsAsPermitted message userId response

/-- When the branch of an action answers once. -/
def AnswersOnce (message : ClientMessage) (manager : ManagerDN) (param : Json) : WsapAction → Prop
  | .setAgentStatus => (param.field "userId").text?.isSome = true → (param.field "state").text?.isSome = true →
      (param.field "agentStatus").convertsToInt = true
  | .reset => ∀ userId, (param.field "userId").text? = some userId →
      (getJavaUserInfo (message.users userId)).1 = true → userId ∉ manager.dnMap
  | .outboundCall => (param.field "userId").text? = none
  | .heartbeat => False
  | _ => True

/-! ## The responses -/

theorem isAnswer_onresponse (action desc agentId : String) (code : Int) :
    IsAnswer action code (onresponse code desc agentId ("on" ++ action)) where
  event := by simp [onresponse, member_ofMembers, lookup_member]
  result := by simp [onresponse, member_ofMembers, lookup_member]

theorem isAnswer_onSignIn (desc agentId : String) (code : Int) (userinfo : JavaUserInfo) :
    IsAnswer "login" code (onSignIn code desc agentId userinfo) where
  event := by simp [onSignIn, member_ofMembers, lookup_member]
  result := by simp [onSignIn, member_ofMembers, lookup_member]

theorem isAnswer_onreset (desc agentId : String) (code : Int) (userinfo : JavaUserInfo) :
    IsAnswer "reset" code (onreset code desc agentId userinfo) where
  event := by simp [onreset, member_ofMembers, lookup_member]
  result := by simp [onreset, member_ofMembers, lookup_member]

theorem isAnswer_ongetusers (code : Int) (userlist : List DNuser) (ambient : Ambient) :
    IsAnswer "getusers" code (ongetusers code userlist ambient) where
  event := by simp [ongetusers, member_ofMembers, lookup_member]
  result := by simp [ongetusers, member_ofMembers, lookup_member]

/-- A handler that answers once whatever it finds, for an action other than `dial`. -/
theorem answeredOnce_of_answers {action : String} {message : ClientMessage} {param : Json}
    {handler : ClientMessage → Except Fault (List Json × ManagerDN)} (noDial : action ≠ "dial") (result : Int)
    (answers : ∀ ambient, ∃ response after, handler { message with ambient } = .ok ([response], after) ∧
      IsAnswer action result response) : AnsweredOnce action message param handler := by
  refine ⟨result, fun ambient => ?_⟩
  obtain ⟨response, after, sent, isAnswer⟩ := answers ambient
  exact ⟨response, after, sent, isAnswer, fun _ isDial => absurd isDial noDial⟩

/-- A handler whose only response has for its result what one of its variables happens to hold. -/
theorem not_answeredOnce_of_found {action : String} {message : ClientMessage} {param : Json}
    {handler : ClientMessage → Except Fault (List Json × ManagerDN)} {answer : Int → Json}
    (result : ∀ found, (answer found).member "result" = .ok (.int found))
    (sends : ∀ found, ∃ ambient after, handler { message with ambient } = .ok ([answer found], after)) :
    ¬ AnsweredOnce action message param handler := by
  rintro ⟨determined, answers⟩
  -- Two storages that differ in that variable give two results.
  have reads : ∀ found, found = determined := by
    intro found
    obtain ⟨ambient, after, sent⟩ := sends found
    obtain ⟨response, other, alsoSent, isAnswer, -⟩ := answers ambient
    obtain ⟨same, -⟩ := Prod.mk.inj (Except.ok.inj (sent.symm.trans alsoSent))
    have read := isAnswer.result
    rw [← List.singleton_inj.mp same, result] at read
    exact Json.int.inj (Except.ok.inj read)
  exact absurd ((reads 0).trans (reads 1).symm) (by decide)

/-! ## The branches

The code a branch returns does not depend on what the manager finds in its storage. -/

theorem signin_code (lib : Libraries) (request : SigninRequest) (ambient other : Ambient)
    (manager : ManagerDN) :
    (manager.signin lib request ambient).1 = (manager.signin lib request other).1 := by
  unfold ManagerDN.signin
  split
  · cases manager.dnMap[request.agentDn]? <;> rfl
  · rfl

theorem signout_code (lib : Libraries) (agentId : String) (ambient other : Ambient) (manager : ManagerDN) :
    (manager.signout lib agentId ambient).1 = (manager.signout lib agentId other).1 := by
  simp only [ManagerDN.signout]
  split <;> rfl

theorem setDNstatus_code (lib : Libraries) (agentId : String) (status : Int) (ambient other : Ambient)
    (manager : ManagerDN) :
    (manager.setDNstatus lib agentId status ambient).1 = (manager.setDNstatus lib agentId status other).1 := by
  simp only [ManagerDN.setDNstatus]
  split <;> rfl

section Branches

variable (lib : Libraries) (message : ClientMessage) {param : Json} (isObject : param.hasMembers = true)
  (manager : ManagerDN)
include isObject

theorem signIn_answers :
    AnsweredOnce "login" message param fun message => signIn lib message param manager := by
  simp only [signIn, stringField_eq, isObject, if_true, bind, Except.bind]
  cases (param.field "userId").text? with
  | none =>
    exact answeredOnce_of_answers (by decide) (-1) fun ambient => ⟨_, _, rfl, isAnswer_onresponse "login" _ _ _⟩
  | some userId => cases (param.field "password").text? with
    | none =>
      exact answeredOnce_of_answers (by decide) (-1)
        fun ambient => ⟨_, _, rfl, isAnswer_onresponse "login" _ _ _⟩
    | some password =>
      dsimp only
      cases account : getJavaUserInfo (message.users userId) with
      | mk found userinfo => cases found with
        | false =>
          refine answeredOnce_of_answers (by decide) (-1) fun ambient => ?_
          dsimp only
          rw [account]
          exact ⟨_, _, rfl, isAnswer_onresponse "login" _ _ _⟩
        | true =>
          let request := signinRequest userId password userinfo message.remoteEndpoint
          refine answeredOnce_of_answers (by decide) (manager.signin lib request message.ambient).1.code
            fun ambient => ?_
          dsimp only
          rw [account, signin_code lib request message.ambient ambient]
          exact ⟨_, _, rfl, isAnswer_onSignIn _ _ _ _⟩

theorem signOut_answers :
    AnsweredOnce "logout" message param fun message => signOut lib message param manager := by
  simp only [signOut, stringField_eq, isObject, if_true, bind, Except.bind]
  cases (param.field "userId").text? with
  | none =>
    exact answeredOnce_of_answers (by decide) (-1)
      fun ambient => ⟨_, _, rfl, isAnswer_onresponse "logout" _ _ _⟩
  | some userId =>
    refine answeredOnce_of_answers (by decide)
      (manager.signout lib userId message.ambient).1.code fun ambient => ?_
    rw [signout_code lib userId message.ambient ambient]
    exact ⟨_, _, rfl, isAnswer_onresponse "logout" _ _ _⟩

theorem getusers_answers :
    AnsweredOnce "getusers" message param fun message => getusers message param manager := by
  simp only [getusers, stringField_eq, isObject, if_true, bind, Except.bind]
  cases (param.field "userId").text? with
  | none =>
    exact answeredOnce_of_answers (by decide) (-1)
      fun ambient => ⟨_, _, rfl, isAnswer_onresponse "getusers" _ _ _⟩
  | some userId => cases (param.field "state").text? with
    | none =>
      exact answeredOnce_of_answers (by decide) (-1)
        fun ambient => ⟨_, _, rfl, isAnswer_onresponse "getusers" _ _ _⟩
    | some status => cases (param.field "department").text? with
      | none =>
        exact answeredOnce_of_answers (by decide) (-1)
          fun ambient => ⟨_, _, rfl, isAnswer_onresponse "getusers" _ _ _⟩
      | some departmentId =>
        exact answeredOnce_of_answers (by decide) _ fun ambient => ⟨_, _, rfl, isAnswer_ongetusers _ _ _⟩

theorem setAgentStatus_answers_iff :
    (AnsweredOnce "changestate" message param fun message => setAgentStatus lib message param manager) ↔
      AnswersOnce message manager param .setAgentStatus := by
  simp only [setAgentStatus, stringField_eq, Json.member_eq, isObject, if_true, bind, Except.bind, AnswersOnce,
    ← Json.isOk_asInt]
  cases (param.field "userId").text? with
  | none =>
    simp only [Option.isSome_none, Bool.false_eq_true, false_implies, iff_true]
    exact answeredOnce_of_answers (by decide) (-1)
      fun ambient => ⟨_, _, rfl, isAnswer_onresponse "changestate" _ _ _⟩
  | some agentId => cases (param.field "state").text? with
    | none =>
      simp only [Option.isSome_none, Bool.false_eq_true, false_implies, implies_true, iff_true]
      exact answeredOnce_of_answers (by decide) (-1)
        fun ambient => ⟨_, _, rfl, isAnswer_onresponse "changestate" _ _ _⟩
    | some status =>
      simp only [Option.isSome_some, true_implies]
      cases (param.field "agentStatus").asInt with
      | error fault =>
        -- an exception leaves the request without a response
        simp only [Outcomes.isOk_error, Bool.false_eq_true, iff_false]
        rintro ⟨_, answers⟩
        obtain ⟨_, _, failed, _⟩ := answers message.ambient
        contradiction
      | ok agentStatus =>
        simp only [Outcomes.isOk_ok, iff_true]
        refine answeredOnce_of_answers (by decide)
          (manager.setDNstatus lib agentId agentStatus message.ambient).1.code fun ambient => ?_
        rw [setDNstatus_code lib agentId agentStatus message.ambient ambient]
        exact ⟨_, _, rfl, isAnswer_onresponse "changestate" _ _ _⟩

/-- Past the last check `ResetDNinfo` returns a value only for an agent who is not signed in. -/
theorem reset_answers_iff :
    (AnsweredOnce "reset" message param fun message => reset message param manager) ↔
      AnswersOnce message manager param .reset := by
  simp only [reset, stringField_eq, isObject, if_true, bind, Except.bind, AnswersOnce]
  cases (param.field "userId").text? with
  | none =>
    simp only [reduceCtorEq, false_implies, implies_true, iff_true]
    exact answeredOnce_of_answers (by decide) (-1) fun ambient => ⟨_, _, rfl, isAnswer_onresponse "reset" _ _ _⟩
  | some userId =>
    simp only [Option.some.injEq, forall_eq']
    cases account : getJavaUserInfo (message.users userId) with
    | mk found userinfo => cases found with
      | false =>
        simp only [Bool.false_eq_true, false_implies, iff_true]
        refine answeredOnce_of_answers (by decide) (-1) fun ambient => ?_
        dsimp only
        rw [account]
        exact ⟨_, _, rfl, isAnswer_onresponse "reset" _ _ _⟩
      | true =>
        simp only [true_implies, ManagerDN.resetDNinfo, Std.ExtTreeMap.mem_iff_isSome_getElem?]
        cases manager.dnMap[userId]? with
        | none =>
          simp only [Option.isSome_none, Bool.false_eq_true, not_false_eq_true, iff_true]
          refine answeredOnce_of_answers (by decide) (-1) fun ambient => ?_
          dsimp only
          rw [account]
          exact ⟨_, _, rfl, isAnswer_onreset _ _ _ _⟩
        | some user =>
          simp only [Option.isSome_some, not_true_eq_false, iff_false]
          -- falls off the end of the function: the result is whatever was in its place
          refine not_answeredOnce_of_found (fun found => (isAnswer_onreset "" userId found userinfo).result) ?_
          intro found
          refine ⟨{ message.ambient with junk := fun _ => found }, ?_⟩
          dsimp only
          rw [account]
          exact ⟨_, rfl⟩

theorem heartbeat_never_answers :
    ¬ AnsweredOnce "heartbeat" message param fun message => heartbeat message param manager := by
  simp only [heartbeat, stringField_eq, isObject, if_true, bind, Except.bind]
  cases (param.field "userId").text? with
  | none =>
    -- The reply to a missing parameter is that of `reset`.
    rintro ⟨result, answers⟩
    obtain ⟨response, after, sent, isAnswer, -⟩ := answers message.ambient
    obtain ⟨same, -⟩ := Prod.mk.inj (Except.ok.inj sent)
    have event := isAnswer.event
    rw [← List.singleton_inj.mp same] at event
    have reset := (isAnswer_onresponse "reset" "lose param of Action SetAgentStatus field" "" (-1)).event
    exact absurd (Json.string.inj (Except.ok.inj (event.symm.trans reset))) (by decide)
  | some userId =>
    refine @not_answeredOnce_of_found _ _ _ _ (fun found => onheartbeat found "" userId) (fun found => ?_) ?_
    · simp [onheartbeat, member_ofMembers, lookup_member]
    · intro found
      exact ⟨{ message.ambient with junk := fun _ => found }, _, rfl⟩

theorem outboundCall_answers_iff :
    (AnsweredOnce "dial" message param fun message => outboundCall message param manager) ↔
      AnswersOnce message manager param .outboundCall := by
  simp only [outboundCall, heartbeat, stringField_eq, isObject, if_true, bind, Except.bind, AnswersOnce]
  cases given : (param.field "userId").text? with
  | none =>
    simp only [iff_true]
    refine ⟨-1, fun ambient => ⟨_, _, rfl, isAnswer_onresponse "dial" _ _ _, ?_⟩⟩
    rintro userId - present
    simp [given] at present
  | some userId =>
    -- The case falls through, and the heartbeat answers as well.
    simp only [reduceCtorEq, iff_false]
    rintro ⟨result, answers⟩
    obtain ⟨response, after, sent, -⟩ := answers message.ambient
    obtain ⟨two, -⟩ := Prod.mk.inj (Except.ok.inj sent)
    simp at two

end Branches

/-! ## Messages -/

/-- The actions a response is named after. -/
def answeredActions : List String := ["login", "logout", "changestate", "getusers", "reset", "dial", "heartbeat"]

theorem onCallapclient_of_object {lib : Libraries} {message : ClientMessage}
    {members fields : List (String × Json)}
    {action : String} (parsed : lib.read message.payload = .ok (some (.object members)))
    (named : members.lookup "action" = some (.string action))
    (given : members.lookup "param" = some (.object fields)) (manager : ManagerDN) :
    onCallapclient lib message manager = perform lib message (.object fields) manager (getcmdType action) := by
  rw [onCallapclient, parsed]
  simp only [bind, Except.bind, stringField, Json.member, named, given, Option.getD_some]
  rfl

/-- A request with one of these actions is answered once exactly when its branch answers once. -/
theorem answeredOnce_iff (lib : Libraries) (message : ClientMessage) (manager : ManagerDN)
    (members fields : List (String × Json)) (action : String)
    (parsed : lib.read message.payload = .ok (some (.object members)))
    (named : members.lookup "action" = some (.string action)) (known : action ∈ answeredActions)
    (given : members.lookup "param" = some (.object fields)) :
    (AnsweredOnce action message (.object fields) fun message => onCallapclient lib message manager) ↔
      AnswersOnce message manager (.object fields) (getcmdType action) := by
  -- the parameter check of the message leads to the branch of the action
  have dispatched : (AnsweredOnce action message
      (.object fields) fun message => onCallapclient lib message manager) ↔
      AnsweredOnce action message (.object fields) fun message =>
        perform lib message (.object fields) manager (getcmdType action) := by
    have same : ∀ ambient, onCallapclient lib { message with ambient } manager =
        perform lib { message with ambient } (.object fields) manager (getcmdType action) :=
      fun ambient =>
        @onCallapclient_of_object lib { message with ambient } members fields action parsed named given manager
    simp only [AnsweredOnce, same]
  rw [dispatched]
  have isObject : (Json.object fields).hasMembers = true := rfl
  simp only [answeredActions, List.mem_cons, List.not_mem_nil, or_false] at known
  rcases known with rfl | rfl | rfl | rfl | rfl | rfl | rfl
  · rw [show getcmdType "login" = .signIn by decide +kernel]
    exact iff_of_true (signIn_answers lib message isObject manager) trivial
  · rw [show getcmdType "logout" = .signOut by decide +kernel]
    exact iff_of_true (signOut_answers lib message isObject manager) trivial
  · rw [show getcmdType "changestate" = .setAgentStatus by decide +kernel]
    exact setAgentStatus_answers_iff lib message isObject manager
  · rw [show getcmdType "getusers" = .getusers by decide +kernel]
    exact iff_of_true (getusers_answers message isObject manager) trivial
  · rw [show getcmdType "reset" = .reset by decide +kernel]
    exact reset_answers_iff message isObject manager
  · rw [show getcmdType "dial" = .outboundCall by decide +kernel]
    exact outboundCall_answers_iff message isObject manager
  · rw [show getcmdType "heartbeat" = .heartbeat by decide +kernel]
    exact iff_of_false (heartbeat_never_answers message isObject manager) id

/-- `{"action":"logout","param":{"userId":"1001"}}` is answered once. -/
theorem answeredOnce_logout :
    AnsweredOnce "logout" (fromClient logoutText) (.object [("userId", .string "1001")])
      fun message => onCallapclient clientLibraries message {} :=
  (answeredOnce_iff clientLibraries (fromClient logoutText) {}
    [("action", .string "logout"), ("param", .object [("userId", .string "1001")])]
    [("userId", .string "1001")] "logout" rfl rfl (by decide +kernel) rfl).mpr trivial

def dialText : String := "\x7b\x22action\x22:\x22dial\x22,\x22param\x22:\x7b\x22userId\x22:\x221001\x22\x7d\x7d"

/-- A parser that knows this text. -/
def dialLibraries : Libraries where
  parse text :=
    if text = dialText then
      some (.object [("action", .string "dial"), ("param", .object [("userId", .string "1001")])])
    else none
  toStyledString _ := ""
  sqlite3Exec _ table := some table

/-- A `dial` request gets the response to a heartbeat as well. -/
theorem dial_answered_twice :
    ¬ ∀ (lib : Libraries) (message : ClientMessage) (manager : ManagerDN)
      (members fields : List (String × Json))
      (action : String), lib.read message.payload = .ok (some (.object members)) →
      members.lookup "action" = some (.string action) → action ∈ answeredActions →
      members.lookup "param" = some (.object fields) →
      AnsweredOnce action message (.object fields) fun message => onCallapclient lib message manager := by
  intro claim
  obtain ⟨result, answers⟩ := claim dialLibraries (fromClient dialText) {}
    [("action", .string "dial"), ("param", .object [("userId", .string "1001")])] [("userId", .string "1001")]
    "dial" rfl rfl (by decide +kernel) rfl
  obtain ⟨response, after, sent, -⟩ := answers noon
  have sentOne : onCallapclient dialLibraries (fromClient dialText) {} = .ok ([response], after) := sent
  -- two responses are sent, not one
  have one : (onCallapclient dialLibraries (fromClient dialText) {}).toOption.map
      (fun outcome => outcome.1.length) = some 1 := by
    rw [sentOne]
    rfl
  revert one
  decide +kernel

end CallCenter.Verified
