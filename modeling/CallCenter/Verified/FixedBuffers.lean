import CallCenter.Foundation.Buffers
import CallCenter.Verified.WorkingLibraries
import CallCenter.Verified.IvrNavigation
import CallCenter.Model.Callout

/-!
# Commands in fixed buffers

Four commands are printed into arrays of fixed size, from texts and numbers whose size nothing looks
at: the bridge to an agent, the key of an IVR node, the originate command and the insert statement.
-/

namespace CallCenter.Verified

open Std (ExtTreeMap)
open CallCenter.Foundation CallCenter.Model

/-- The argument of the bridge to an agent, `char allagent[16]`. -/
def allagent (strdn : String) : String := "user/" ++ cStr strdn

/-- The statement of `InsertTable`, `char charsql[1024]`. -/
def charsql (lib : Libraries) (user : DNuser) : String :=
  "Insert into  dnuser (strdn  ,strserize ) values('" ++ cStr user.dn ++ "','" ++
    cStr (user.serialize lib) ++ "') "

theorem insertTable_eq (lib : Libraries) (user : DNuser) (table : DnuserTable) :
    insertTable lib user table = runStatement lib (charsql lib user) table := rfl

/-- The agent `Signin` puts into the map. -/
def signedIn (manager : ManagerDN) (request : SigninRequest) (ambient : Ambient) : DNuser :=
  (DNuser.construct request ambient).inlineSetcompanyid (atoi (manager.getcompanyidbyDN request.agentDn))

/-- `Signin` makes a new agent of the request. -/
def Creates (manager : ManagerDN) (request : SigninRequest) : Prop :=
  manager.checkvaildDN request.agentDn = true ∧ manager.dnMap[request.agentDn]? = none

/-- Every command fits its buffer: those of the agents in the routing table, of the nodes that are loaded,
of the rows to call and of the agent that signs in. -/
structure CommandsFit (lib : Libraries) (manager : ManagerDN) (rows : List OutcallInfo)
    (request : SigninRequest) (ambient : Ambient) : Prop where
  bridge : ∀ route ∈ manager.gRoute, Fits 16 (allagent route.agent)
  flowKeys : ∀ entry ∈ allNodes manager.ivr.ivrNodetable, Fits 16 (flowKey entry)
  originate : ∀ row ∈ rows, Fits 256 (callCmd manager.prefixNumber row)
  insert : Creates manager request → Fits 1024 (charsql lib (signedIn manager request ambient))

/-! ## What jsoncpp writes -/

/-- A value that is written on one line. -/
def OneLine : Json → Prop
  | .int _ => True
  | .bool _ => True
  | .string _ => True
  | _ => False

def styledValue (quoted : String → String) : Json → String
  | .int value => toString value
  | .bool value => if value then "true" else "false"
  | .string value => quoted value
  | _ => ""

def styledMembers (quoted : String → String) : List (String × Json) → String
  | [] => ""
  | [(key, value)] => "   " ++ quoted key ++ " : " ++ styledValue quoted value
  | (key, value) :: rest =>
    "   " ++ quoted key ++ " : " ++ styledValue quoted value ++ ",\n" ++ styledMembers quoted rest

/-- `toStyledString` on an object of such values: a member on each line, its key and its strings quoted.
A quoted text holds no zero; of letters the quotes are all that is added. -/
structure WritesMembers (lib : Libraries) (quoted : String → String) : Prop where
  styled : ∀ members : List (String × Json), members ≠ [] → (∀ member ∈ members, OneLine member.2) →
    lib.toStyledString (.object members) = "\x7b\n" ++ styledMembers quoted members ++ "\n\x7d\n"
  noZero : ∀ text, '\x00' ∉ (quoted text).toList
  letters : ∀ text, (text.toList.all Char.isAlpha) = true → quoted text = "\x22" ++ text ++ "\x22"

/-- The bytes of a member without the comma behind it. -/
def memberSize (quoted : String → String) (member : String × Json) : Nat :=
  6 + (quoted member.1).utf8ByteSize + (styledValue quoted member.2).utf8ByteSize

theorem utf8ByteSize_styledMembers (quoted : String → String) {members : List (String × Json)}
    (some' : members ≠ []) :
    (styledMembers quoted members).utf8ByteSize + 2 =
      (members.map fun member => memberSize quoted member + 2).sum := by
  have indent : "   ".utf8ByteSize = 3 := rfl
  have colon : " : ".utf8ByteSize = 3 := rfl
  have comma : ",\n".utf8ByteSize = 2 := rfl
  induction members with
  | nil => contradiction
  | cons first rest inductionHypothesis =>
    obtain ⟨key, value⟩ := first
    cases rest with
    | nil =>
      simp only [styledMembers, String.utf8ByteSize_append, indent, colon, List.map_cons, List.map_nil,
        List.sum_cons, List.sum_nil, memberSize]
      omega
    | cons next rest =>
      have others := inductionHypothesis (by simp)
      rw [List.map_cons, List.sum_cons, ← others]
      simp only [styledMembers, String.utf8ByteSize_append, indent, colon, comma, memberSize]
      omega

theorem zero_notMem_toString (number : Int) : '\x00' ∉ (toString number).toList := by
  rw [Int.toString_eq_repr, Int.repr_eq_if]
  have digits : ∀ n : Nat, '\x00' ∉ n.repr.toList := by
    intro n member
    rw [Nat.toList_repr] at member
    exact absurd (Nat.isDigit_of_mem_toDigits (by decide) (by decide) member) (by decide)
  split
  · exact digits _
  · rw [String.toList_append, List.mem_append]
    rintro (sign | digit)
    · simp at sign
    · exact digits _ digit

theorem zero_notMem_styledValue {quoted : String → String} (noZero : ∀ text, '\x00' ∉ (quoted text).toList)
    (value : Json) : '\x00' ∉ (styledValue quoted value).toList := by
  cases value with
  | int value => exact zero_notMem_toString value
  | bool value => cases value <;> simp [styledValue]
  | string value => exact noZero value
  | _ => simp [styledValue]

theorem zero_notMem_styledMembers {quoted : String → String} (noZero : ∀ text, '\x00' ∉ (quoted text).toList)
    (members : List (String × Json)) : '\x00' ∉ (styledMembers quoted members).toList := by
  induction members with
  | nil => simp [styledMembers]
  | cons first rest inductionHypothesis =>
    obtain ⟨key, value⟩ := first
    have values := zero_notMem_styledValue noZero value
    cases rest with
    | nil => simp [styledMembers, noZero, values]
    | cons next rest => simp [styledMembers, noZero, values, inductionHypothesis]

/-! ## Members in any order -/

theorem assignMember_perm {key : String} {value : Json} {members : List (String × Json)}
    (fresh : key ∉ members.map Prod.fst) :
    (Json.assignMember key value members).Perm ((key, value) :: members) := by
  induction members with
  | nil => exact .refl _
  | cons first rest inductionHypothesis =>
    obtain ⟨name, old⟩ := first
    simp only [List.map_cons, List.mem_cons, not_or] at fresh
    rw [Json.assignMember, if_neg fresh.1]
    split
    · exact .refl _
    · exact ((inductionHypothesis fresh.2).cons _).trans (.swap _ _ _)

/-- The object has the members that were assigned, if their keys differ. -/
theorem ofMembers_perm {members : List (String × Json)} (distinct : (members.map Prod.fst).Nodup) :
    ∃ built, Json.ofMembers members = .object built ∧ built.Perm members := by
  -- over any members built so far, since the fold carries them along
  have assigned : ∀ members start : List (String × Json), ((members ++ start).map Prod.fst).Nodup →
      (members.foldl (fun built entry => Json.assignMember entry.1 entry.2 built) start).Perm
        (members ++ start) := by
    intro members
    induction members with
    | nil => exact fun start _ => .refl _
    | cons first rest inductionHypothesis =>
      intro start distinct
      rw [List.cons_append, List.map_cons, List.nodup_cons] at distinct
      have fresh : first.1 ∉ start.map Prod.fst := fun present =>
        distinct.1 (by rw [List.map_append]; exact List.mem_append_right _ present)
      have next := @assignMember_perm first.1 first.2 start fresh
      have moved : (rest ++ Json.assignMember first.1 first.2 start).Perm (first :: (rest ++ start)) :=
        (next.append_left rest).trans List.perm_middle
      have nodup : ((rest ++ Json.assignMember first.1 first.2 start).map Prod.fst).Nodup :=
        (moved.map Prod.fst).nodup_iff.mpr (List.nodup_cons.mpr distinct)
      exact (inductionHypothesis _ nodup).trans moved
  refine ⟨_, rfl, ?_⟩
  have built := assigned members [] (by rwa [List.append_nil])
  rwa [List.append_nil] at built

/-! ## The four commands -/

theorem fits_allagent_iff (strdn : String) : Fits 16 (allagent strdn) ↔ (cStr strdn).utf8ByteSize ≤ 10 := by
  have word : "user/".utf8ByteSize = 5 := rfl
  rw [Fits, allagent, String.utf8ByteSize_append, word]
  omega

theorem fits_flowKey_iff (entry : (Int × CompanyTable) × IvrNode) :
    Fits 16 (flowKey entry) ↔ decimalSize entry.1.1 + decimalSize entry.2.nodeId ≤ 14 := by
  have underscore : "_".utf8ByteSize = 1 := rfl
  rw [Fits, flowKey, underscored, String.utf8ByteSize_append, String.utf8ByteSize_append, underscore,
    utf8ByteSize_toString, utf8ByteSize_toString]
  omega

theorem fits_callCmd_iff (prefixNumber : String) (row : OutcallInfo) :
    Fits 256 (callCmd prefixNumber row) ↔
      decimalSize row.companyId + (cStr row.taskId).utf8ByteSize + (cStr prefixNumber).utf8ByteSize +
        (cStr row.phone).utf8ByteSize ≤ 165 := by
  -- over any words, for rewriting must not look into the long ones
  have sum : ∀ first second third last : String,
      (first ++ toString row.companyId ++ second ++ cStr row.taskId ++ third ++ cStr prefixNumber ++
        cStr row.phone ++ last).utf8ByteSize =
        first.utf8ByteSize + second.utf8ByteSize + third.utf8ByteSize + last.utf8ByteSize +
          (decimalSize row.companyId + (cStr row.taskId).utf8ByteSize + (cStr prefixNumber).utf8ByteSize +
            (cStr row.phone).utf8ByteSize) := by
    intro first second third last
    simp only [String.utf8ByteSize_append, utf8ByteSize_toString]
    omega
  have words : "bgapi originate \x7bignore_early_media=true,company_id=".utf8ByteSize +
      ",taskID=".utf8ByteSize + "\x7dsofia/gateway/reingw/".utf8ByteSize + " &park()".utf8ByteSize = 90 := by decide +kernel
  have text : callCmd prefixNumber row = "bgapi originate \x7bignore_early_media=true,company_id=" ++
      toString row.companyId ++ ",taskID=" ++ cStr row.taskId ++ "\x7dsofia/gateway/reingw/" ++
      cStr prefixNumber ++ cStr row.phone ++ " &park()" := rfl
  rw [Fits, text, sum, words]
  clear words
  omega

/-- The bytes of the strings of an agent, quoted, and of its numbers and flags. -/
def agentSize (quoted : String → String) (user : DNuser) : Nat :=
  (quoted user.dn).utf8ByteSize + (quoted user.agentid).utf8ByteSize + (quoted user.reason).utf8ByteSize +
    (quoted user.agentPwd).utf8ByteSize + (quoted user.skills).utf8ByteSize +
    (quoted user.peerIP).utf8ByteSize + decimalSize user.commpanyid.value + decimalSize user.agentstatus.value +
    (if user.autoAnswer.value then 4 else 5) + (if user.fcSignin.value then 4 else 5)

/-- The text of an agent holds no zero; 177 of its bytes are the same for all agents. -/
theorem serialize_size {lib : Libraries} {quoted : String → String} (writes : WritesMembers lib quoted)
    (user : DNuser) :
    '\x00' ∉ (user.serialize lib).toList ∧
      (user.serialize lib).utf8ByteSize = 177 + agentSize quoted user := by
  let members : List (String × Json) :=
    [("commpanyid", .int user.commpanyid.value), ("DN", .string user.dn),
     ("agentid", .string user.agentid), ("reason", .string user.reason),
     ("agentstatus", .int user.agentstatus.value), ("agentPwd", .string user.agentPwd),
     ("autoAnswer", .bool user.autoAnswer.value), ("fcSignin", .bool user.fcSignin.value),
     ("skills", .string user.skills), ("peerIP", .string user.peerIP)]
  have distinct : (members.map Prod.fst).Nodup := by simp [members]
  obtain ⟨built, object, perm⟩ := ofMembers_perm distinct
  have some' : built ≠ [] := fun none => by
    rw [none] at perm
    exact absurd perm.length_eq (by simp [members])
  have oneLine : ∀ member ∈ built, OneLine member.2 := fun member listed => by
    have listed := perm.subset listed
    simp only [members, List.mem_cons, List.not_mem_nil, or_false] at listed
    obtain rfl | rfl | rfl | rfl | rfl | rfl | rfl | rfl | rfl | rfl := listed <;> trivial
  have text : user.serialize lib = "\x7b\n" ++ styledMembers quoted built ++ "\n\x7d\n" := by
    rw [← writes.styled built some' oneLine, ← object]
    rfl
  constructor
  · have inside := zero_notMem_styledMembers writes.noZero built
    rw [text]
    simp [inside]
  · have opening : "\x7b\n".utf8ByteSize = 2 := rfl
    have closing : "\n\x7d\n".utf8ByteSize = 3 := rfl
    have quotes : "\x22".utf8ByteSize = 1 := rfl
    -- the order of the members does not matter to the sum
    have sum := utf8ByteSize_styledMembers quoted some'
    rw [(perm.map fun member => memberSize quoted member + 2).sum_eq] at sum
    have names : ∀ name ∈ members.map Prod.fst, (quoted name).utf8ByteSize = name.utf8ByteSize + 2 := by
      intro name listed
      have letters : ∀ name ∈ members.map Prod.fst, name.toList.all Char.isAlpha = true := by
        simp only [members, List.map_cons, List.map_nil]
        decide +kernel
      rw [writes.letters name (letters name listed), String.utf8ByteSize_append, String.utf8ByteSize_append,
        quotes]
      omega
    simp only [members, List.map_cons, List.map_nil, List.forall_mem_cons] at names
    obtain ⟨company, dn, agentid, reason, agentstatus, agentPwd, autoAnswer, fcSignin, skills, peerIP, _⟩ :=
      names
    have words : "commpanyid".utf8ByteSize + "DN".utf8ByteSize + "agentid".utf8ByteSize +
        "reason".utf8ByteSize + "agentstatus".utf8ByteSize + "agentPwd".utf8ByteSize + "autoAnswer".utf8ByteSize +
        "fcSignin".utf8ByteSize + "skills".utf8ByteSize + "peerIP".utf8ByteSize = 74 := by
      decide +kernel
    have flag : ∀ value : Bool, (if value then "true" else "false").utf8ByteSize = if value then 4 else 5 := by
      decide +kernel
    simp only [members, List.map_cons, List.map_nil, List.sum_cons, List.sum_nil, memberSize, styledValue,
      company, dn, agentid, reason, agentstatus, agentPwd, autoAnswer, fcSignin, skills, peerIP, flag,
      utf8ByteSize_toString] at sum
    rw [text, String.utf8ByteSize_append, String.utf8ByteSize_append, opening, closing, agentSize]
    omega

theorem fits_charsql_iff {lib : Libraries} {quoted : String → String} (writes : WritesMembers lib quoted)
    (user : DNuser) :
    Fits 1024 (charsql lib user) ↔ (cStr user.dn).utf8ByteSize + agentSize quoted user ≤ 791 := by
  obtain ⟨noZero, size⟩ := serialize_size writes user
  have sum : ∀ first second third : String,
      (first ++ cStr user.dn ++ second ++ user.serialize lib ++ third).utf8ByteSize =
        first.utf8ByteSize + second.utf8ByteSize + third.utf8ByteSize +
          ((cStr user.dn).utf8ByteSize + (177 + agentSize quoted user)) := by
    intro first second third
    rw [← size]
    simp only [String.utf8ByteSize_append]
    omega
  have words : "Insert into  dnuser (strdn  ,strserize ) values('".utf8ByteSize + "','".utf8ByteSize +
      "') ".utf8ByteSize = 55 := by decide +kernel
  have text : charsql lib user = "Insert into  dnuser (strdn  ,strserize ) values('" ++ cStr user.dn ++ "','" ++
      cStr (user.serialize lib) ++ "') " := rfl
  rw [Fits, text, cStr_eq_self noZero, sum, words]
  clear words
  omega

/-! ## All of them -/

/-- The texts and numbers the four commands are made of are short enough. -/
structure ShortInputs (quoted : String → String) (manager : ManagerDN) (rows : List OutcallInfo)
    (request : SigninRequest) : Prop where
  dn : ∀ route ∈ manager.gRoute, (cStr route.agent).utf8ByteSize ≤ 10
  ids : ∀ entry ∈ allNodes manager.ivr.ivrNodetable, decimalSize entry.1.1 + decimalSize entry.2.nodeId ≤ 14
  row : ∀ row ∈ rows, decimalSize row.companyId + (cStr row.taskId).utf8ByteSize +
    (cStr manager.prefixNumber).utf8ByteSize + (cStr row.phone).utf8ByteSize ≤ 165
  agent : Creates manager request →
    (cStr request.agentDn).utf8ByteSize + (quoted request.agentDn).utf8ByteSize +
      (quoted request.agentId).utf8ByteSize + (quoted request.agentPwd).utf8ByteSize +
      (quoted request.skills).utf8ByteSize + (quoted request.peerIP).utf8ByteSize +
      decimalSize (atoi (manager.getcompanyidbyDN request.agentDn)) + decimalSize request.statusChangetype +
      (if request.autoAnswer then 4 else 5) + (if request.fcSignin then 4 else 5) ≤ 789

/-- The commands fit exactly when what they are made of is short. -/
theorem commandsFit_iff {lib : Libraries} {quoted : String → String} (writes : WritesMembers lib quoted)
    (manager : ManagerDN) (rows : List OutcallInfo) (request : SigninRequest) (ambient : Ambient) :
    CommandsFit lib manager rows request ambient ↔ ShortInputs quoted manager rows request := by
  have insert : Fits 1024 (charsql lib (signedIn manager request ambient)) ↔ _ := fits_charsql_iff writes _
  have empty : (quoted "").utf8ByteSize = 2 := by
    rw [writes.letters "" rfl]
    rfl
  have parts : agentSize quoted (signedIn manager request ambient) =
      (quoted request.agentDn).utf8ByteSize + (quoted request.agentId).utf8ByteSize +
        (quoted "").utf8ByteSize + (quoted request.agentPwd).utf8ByteSize +
        (quoted request.skills).utf8ByteSize + (quoted request.peerIP).utf8ByteSize +
        decimalSize (atoi (manager.getcompanyidbyDN request.agentDn)) + decimalSize request.statusChangetype +
        (if request.autoAnswer then 4 else 5) + (if request.fcSignin then 4 else 5) := rfl
  have own : (signedIn manager request ambient).dn = request.agentDn := rfl
  rw [parts, own, empty] at insert
  constructor
  · intro fit
    refine ⟨fun route listed => (fits_allagent_iff _).mp (fit.bridge route listed),
      fun entry listed => (fits_flowKey_iff entry).mp (fit.flowKeys entry listed),
      fun row listed => (fits_callCmd_iff _ row).mp (fit.originate row listed), fun creates => ?_⟩
    have short := insert.mp (fit.insert creates)
    omega
  · intro short
    refine ⟨fun route listed => (fits_allagent_iff _).mpr (short.dn route listed),
      fun entry listed => (fits_flowKey_iff entry).mpr (short.ids entry listed),
      fun row listed => (fits_callCmd_iff _ row).mpr (short.row row listed), fun creates => insert.mpr ?_⟩
    have sum := short.agent creates
    omega

/-! ## A writer of strings -/

/-- A character of a JSON string: quotes, backslashes and control characters are escaped. -/
def escapeChar (c : Char) : List Char :=
  if c = '\x22' ∨ c = '\x5c' then ['\x5c', c]
  else if c = '\x08' then ['\x5c', 'b']
  else if c = '\x0c' then ['\x5c', 'f']
  else if c = '\n' then ['\x5c', 'n']
  else if c = '\r' then ['\x5c', 'r']
  else if c = '\t' then ['\x5c', 't']
  else if c.toNat < 32 then
    ['\x5c', 'u', '0', '0', Nat.digitChar (c.toNat / 16), (Nat.digitChar (c.toNat % 16)).toUpper]
  else [c]

/-- `valueToQuotedString`. -/
def quote (text : String) : String :=
  "\x22" ++ String.ofList (text.toList.flatMap escapeChar) ++ "\x22"

/-- jsoncpp's writer of objects. -/
def quotingLibraries : Libraries :=
  { workingLibraries with
    toStyledString := fun value => match value with
      | .object members => "\x7b\n" ++ styledMembers quote members ++ "\n\x7d\n"
      | _ => "null\n" }

theorem zero_notMem_escapeChar (c : Char) : '\x00' ∉ escapeChar c := by
  have control : ∀ n < 32, '\x00' ∉ ['\x5c', 'u', '0', '0', Nat.digitChar (n / 16),
      (Nat.digitChar (n % 16)).toUpper] := by decide +kernel
  intro member
  unfold escapeChar at member
  split at member
  case isTrue special => obtain rfl | rfl := special <;> simp at member
  iterate 5
    split at member
    · simp at member
  split at member
  · rename_i small
    exact control c.toNat small member
  · rename_i large
    rw [List.mem_singleton] at member
    exact large (member ▸ (by decide))

theorem escapeChar_of_isAlpha {c : Char} (letter : c.isAlpha = true) : escapeChar c = [c] := by
  have large : ∀ d : Char, d.isAlpha = false → c ≠ d := by
    rintro d noLetter rfl
    exact absurd (letter.symm.trans noLetter) (by decide)
  have code : 32 ≤ c.toNat := by
    simp only [Char.isAlpha, Char.isUpper, Char.isLower, Bool.or_eq_true, Bool.and_eq_true,
      decide_eq_true_eq] at letter
    have least : ∀ first : UInt32, c.val ≥ first → first.toNat ≤ c.toNat := fun _ => UInt32.le_iff_toNat_le.mp
    cases letter with
    | inl upper => exact (by decide : 32 ≤ ('A'.val).toNat).trans (least _ upper.1)
    | inr lower => exact (by decide : 32 ≤ ('a'.val).toNat).trans (least _ lower.1)
  rw [escapeChar, if_neg (by rintro (same | same) <;> exact large _ (by decide) same),
    if_neg (large _ (by decide)), if_neg (large _ (by decide)), if_neg (large _ (by decide)),
    if_neg (large _ (by decide)), if_neg (large _ (by decide)), if_neg (by omega)]

theorem quotingLibraries_writesMembers : WritesMembers quotingLibraries quote where
  styled _ _ _ := rfl
  noZero text := by
    have inside : '\x00' ∉ text.toList.flatMap escapeChar := fun member => by
      obtain ⟨c, _, zero⟩ := List.mem_flatMap.mp member
      exact zero_notMem_escapeChar c zero
    simp [quote, inside]
  letters text all := by
    have same : text.toList.flatMap escapeChar = text.toList := by
      rw [List.flatMap_congr (g := fun c => [c]) fun c member =>
        escapeChar_of_isAlpha (List.all_eq_true.mp all c member), List.flatMap_singleton']
    rw [quote, same, String.ofList_toList]

/-- An agent of the first extension. -/
def signinOf (agentDn : String) : SigninRequest where
  agentId          := "1001"
  agentDn          := agentDn
  agentPwd         := "tx"
  statusChangetype := AgentStatus.waitingReady.code
  autoAnswer       := false
  fcSignin         := false
  skills           := "sales"
  departmentId     := 1
  departmentName   := "sales"
  userName         := "1001"
  peerIP           := "10.0.0.7"

/-- A company whose agent has this extension, with one node. -/
def companyOf (agent : String) (company node : Int) : ManagerDN where
  gRoute := [{ group := "4001", agent, groupId := "1", gataname := "ingw", prefixNumber := "88" }]
  ivr := { ivrNodetable := groupRows 1 [{ companyId := company, nodeId := node }] ∅ }
  prefixNumber := "88"

/-- Short extensions, numbers and texts fit. -/
theorem commandsFit_company :
    CommandsFit quotingLibraries (companyOf "1001" 1 1)
      [{ phone := "13800000000", taskId := "7", companyId := 1 }] (signinOf "1001") noon :=
  (commandsFit_iff quotingLibraries_writesMembers _ _ _ _).mpr
    ⟨by decide +kernel, by decide +kernel, by decide +kernel, fun _ => by decide +kernel⟩

theorem password_le_agentSize (quoted : String → String) (user : DNuser) :
    (quoted user.agentPwd).utf8ByteSize ≤ agentSize quoted user := by
  rw [agentSize]
  omega

/-- A text of so many letters. -/
def lettersOf (count : Nat) : String := String.ofList (List.replicate count 'x')

theorem utf8ByteSize_lettersOf (count : Nat) : (lettersOf count).utf8ByteSize = count := by
  induction count with
  | zero => rfl
  | succ count inductionHypothesis =>
    rw [lettersOf] at inductionHypothesis ⊢
    rw [List.replicate_succ, ← List.singleton_append, String.ofList_append, String.utf8ByteSize_append,
      inductionHypothesis, Nat.add_comm]
    rfl

theorem utf8ByteSize_quote_lettersOf (count : Nat) :
    (quote (lettersOf count)).utf8ByteSize = 1 + count + 1 := by
  have letters : (lettersOf count).toList.all Char.isAlpha = true := by
    rw [lettersOf, String.toList_ofList]
    simp
  have mark : "\x22".utf8ByteSize = 1 := rfl
  rw [quotingLibraries_writesMembers.letters _ letters, String.utf8ByteSize_append, String.utf8ByteSize_append,
    utf8ByteSize_lettersOf, mark]

/-- A mobile number as an extension is too long for the bridge, ids of eight digits are too long for the
key, and a password of eight hundred letters is for the row. -/
theorem long_inputs_overflow :
    ¬ Fits 16 (allagent "13800000000") ∧
    (¬ ∀ entry ∈ allNodes (companyOf "1001" 10000001 10000001).ivr.ivrNodetable, Fits 16 (flowKey entry)) ∧
    ¬ Fits 1024 (charsql quotingLibraries
      (signedIn (companyOf "1001" 1 1) { signinOf "1001" with agentPwd := lettersOf 800 } noon)) := by
  refine ⟨by decide +kernel, by decide +kernel, fun fits => ?_⟩
  have short := (fits_charsql_iff quotingLibraries_writesMembers _).mp fits
  have part := password_le_agentSize quote
    (signedIn (companyOf "1001" 1 1) { signinOf "1001" with agentPwd := lettersOf 800 } noon)
  have size : (quote (lettersOf 800)).utf8ByteSize ≤ 791 := part.trans ((Nat.le_add_left _ _).trans short)
  rw [utf8ByteSize_quote_lettersOf] at size
  exact absurd size (by decide)

end CallCenter.Verified
