import CallCenter.Verified.IniLoading
import CallCenter.Model.Settings

/-!
# The settings of a start

Each setting has its own key in `Service.ini` and its own default.  A server address that is missing is
answered with the default of the prefix, and the defaults are in the branch of a file that loads.
-/

namespace CallCenter.Verified

open CallCenter.Foundation CallCenter.Foundation.Text CallCenter.Model
open CallCenter.Model.IniFile (findItem retOk retErr)

/-- The value of a key, where it is present. -/
def valueOf (ini : IniFile) (sect key : Text) : Option Text :=
  ((ini.getSection sect).bind (findItem key)).map IniItem.value

/-- The value of a key of `Service.ini`, where the file loads and the key is present. -/
def settingOf (service : Option Text) (sect key : String) : Option Text :=
  match IniFile.load {} service with
  | .ok (code, ini) => if code = 0 then valueOf ini sect.toList key.toList else none
  | .error _ => none

/-- Each setting is the value of its own key, or its own default.  No default is given for the server
address; without a key it is empty. -/
structure OwnSettings (service : Option Text) (after : Settings) : Prop where
  fsip : after.fsip = (settingOf service "FREESWITCH" "IP").getD "0.0.0.0".toList
  fsport : after.fsport =
    ((settingOf service "FREESWITCH" "PORT").map fun value => atoi (.ofList value)).getD 8021
  fspwd : after.fspwd = (settingOf service "FREESWITCH" "PSSWD").getD "tx@infosun".toList
  fsxmlpath : after.fsxmlpath = (settingOf service "FREESWITCH" "XMLPATH").getD
    "/usr/local/freeswitch/conf/sip_profiles/external/".toList
  prefixNumber : after.prefixNumber = (settingOf service "TXBETA" "prefix").getD "88".toList
  serverIP : after.serverIP = (settingOf service "TXBETA" "serverip").getD []
  wsbussinessPort : after.wsbussinessPort =
    ((settingOf service "TXBETA" "wsport").map fun value => atoi (.ofList value)).getD 10081
  tcpbussinessPort : after.tcpbussinessPort =
    ((settingOf service "TXBETA" "outcalltcpport").map fun value => atoi (.ofList value)).getD 10090

/-- All settings at their defaults. -/
def defaultSettings : Settings where
  fsip             := "0.0.0.0".toList
  fsport           := 8021
  fspwd            := "tx@infosun".toList
  fsxmlpath        := "/usr/local/freeswitch/conf/sip_profiles/external/".toList
  prefixNumber     := "88".toList
  serverIP         := []
  wsbussinessPort  := 10081
  tcpbussinessPort := 10090

/-- A file that loads has the server address, or no other prefix than the default; where none loads the
members hold the defaults already. -/
def KeepsSettingsApart (service : Option Text) (members : Settings) : Prop :=
  match IniFile.load {} service with
  | .ok (code, ini) =>
    if code = 0 then
      (valueOf ini "TXBETA".toList "serverip".toList).isSome = true ∨
        (valueOf ini "TXBETA".toList "prefix".toList).getD "88".toList = "88".toList
    else members = defaultSettings
  | .error _ => False

theorem getStringValue_eq (ini : IniFile) (sect key : Text) :
    ini.getStringValue sect key =
      ((valueOf ini sect key).getD [], if (valueOf ini sect key).isSome then retOk else retErr) := by
  rw [IniFile.getStringValue, IniFile.getValue, valueOf]
  cases (ini.getSection sect).bind (findItem key) <;> rfl

theorem getIntValue_eq (ini : IniFile) (sect key : Text) :
    ini.getIntValue sect key =
      (atoi (.ofList ((valueOf ini sect key).getD [])),
        if (valueOf ini sect key).isSome then retOk else retErr) := by
  rw [IniFile.getIntValue, IniFile.getValue, valueOf]
  cases (ini.getSection sect).bind (findItem key) <;> rfl

/-- What a setting is after its lookup and the check of `iret`. -/
theorem defaulted {Value : Type} (read : Text → Value) (default : Value) (found : Option Text) :
    (if (if found.isSome then retOk else retErr) ≠ 0 then default else read (found.getD [])) =
      (found.map read).getD default := by
  cases found <;> rfl

/-- The members after a file that loads. -/
theorem assign_eq (ini : IniFile) (members : Settings) :
    Settings.assign ini members =
      { fsip := (valueOf ini "FREESWITCH".toList "IP".toList).getD "0.0.0.0".toList
        fsport :=
          ((valueOf ini "FREESWITCH".toList "PORT".toList).map fun value => atoi (.ofList value)).getD 8021
        fspwd := (valueOf ini "FREESWITCH".toList "PSSWD".toList).getD "tx@infosun".toList
        fsxmlpath := (valueOf ini "FREESWITCH".toList "XMLPATH".toList).getD
          "/usr/local/freeswitch/conf/sip_profiles/external/".toList
        prefixNumber :=
          if (valueOf ini "TXBETA".toList "serverip".toList).isSome then
            (valueOf ini "TXBETA".toList "prefix".toList).getD "88".toList
          else "88".toList
        serverIP := (valueOf ini "TXBETA".toList "serverip".toList).getD []
        wsbussinessPort :=
          ((valueOf ini "TXBETA".toList "wsport".toList).map fun value => atoi (.ofList value)).getD 10081
        tcpbussinessPort :=
          ((valueOf ini "TXBETA".toList "outcalltcpport".toList).map fun value =>
            atoi (.ofList value)).getD 10090 } := by
  have texts : ∀ (default : Text) (found : Option Text),
      (if (if found.isSome then retOk else retErr) ≠ 0 then default else found.getD []) =
        found.getD default := by
    intro default found
    cases found <;> rfl
  have numbers := fun default => defaulted (fun value => atoi (.ofList value)) default
  simp only [Settings.assign, getStringValue_eq, getIntValue_eq, texts, numbers]
  cases valueOf ini "TXBETA".toList "serverip".toList <;> rfl

/-- The settings are their own exactly when they are kept apart. -/
theorem ownSettings_iff (service : Option Text) (members : Settings) :
    (∃ after, Settings.loadConfigini service members = .ok after ∧ OwnSettings service after) ↔
      KeepsSettingsApart service members := by
  rw [KeepsSettingsApart, Settings.loadConfigini]
  cases loaded : IniFile.load {} service with
  | error fault => simp [bind, Except.bind]
  | ok result =>
    obtain ⟨code, ini⟩ := result
    simp only [bind, Except.bind, pure, Except.pure, Except.ok.injEq, exists_eq_left']
    by_cases loads : code = 0
    · have settings : ∀ sect key, settingOf service sect key = valueOf ini sect.toList key.toList := by
        intro sect key
        simp only [settingOf, loaded, loads, if_true]
      rw [if_pos loads, if_pos loads, assign_eq]
      constructor
      · intro own
        have kept := own.prefixNumber
        rw [settings] at kept
        cases present : valueOf ini "TXBETA".toList "serverip".toList with
        | none =>
          simp only [present, Option.isSome_none, Bool.false_eq_true, if_false] at kept
          exact .inr kept.symm
        | some address => exact .inl rfl
      · intro apart
        refine ⟨?_, ?_, ?_, ?_, ?_, ?_, ?_, ?_⟩ <;> simp only [settings]
        obtain present | other := apart
        · rw [if_pos present]
        · rw [other]
          exact ite_self _
    · have settings : ∀ sect key, settingOf service sect key = none := by
        intro sect key
        simp only [settingOf, loaded, loads, if_false]
      rw [if_neg loads, if_neg loads]
      constructor
      · intro own
        obtain ⟨fsip, fsport, fspwd, fsxmlpath, prefixNumber, serverIP, wsport, tcpport⟩ := own
        simp only [settings, Option.map_none, Option.getD_none]
          at fsip fsport fspwd fsxmlpath prefixNumber serverIP wsport tcpport
        obtain ⟨⟩ := members
        exact (Settings.mk.injEq ..).mpr
          ⟨fsip, fsport, fspwd, fsxmlpath, prefixNumber, serverIP, wsport, tcpport⟩
      · rintro rfl
        refine ⟨?_, ?_, ?_, ?_, ?_, ?_, ?_, ?_⟩ <;> rw [settings] <;> rfl

/-- A prefix alone: it is lost for the server address that is missing. -/
theorem configured_prefix_lost :
    ¬ ∃ after, Settings.loadConfigini (some "[TXBETA]\nprefix=99\n".toList) {} = .ok after ∧
      OwnSettings (some "[TXBETA]\nprefix=99\n".toList) after := by
  rintro ⟨after, done, own⟩
  have after99 : (Settings.loadConfigini (some "[TXBETA]\nprefix=99\n".toList) {}).toOption.map
      Settings.prefixNumber = some "88".toList := by decide +kernel
  have key99 : settingOf (some "[TXBETA]\nprefix=99\n".toList) "TXBETA" "prefix" = some "99".toList := by
    decide +kernel
  have kept := own.prefixNumber
  rw [key99] at kept
  rw [done] at after99
  simp only [Except.toOption, Option.map_some, Option.some.injEq] at after99
  rw [after99] at kept
  revert kept
  decide

end CallCenter.Verified
