import CallCenter.Model.IniFile

/-!
# Start-up settings

`loadConfigini` of `DNManager.cpp`: the static members of `ManagerDN` that `Service.ini` sets.
-/

namespace CallCenter.Model

open CallCenter.Foundation (Text)

/-- The members, as static storage leaves them. -/
structure Settings where
  fsip : Text := []
  fsport : Int := 0
  fspwd : Text := []
  fsxmlpath : Text := []
  prefixNumber : Text := []
  serverIP : Text := []
  wsbussinessPort : Int := 0
  tcpbussinessPort : Int := 0
  deriving DecidableEq, Repr

namespace Settings

/-- The assignments of `loadConfigini`, in their order. -/
def assign (file : IniFile) (members : Settings) : Settings :=
  let freeswitch := "FREESWITCH".toList
  let txbeta := "TXBETA".toList
  let (fsip, iret) := file.getStringValue freeswitch "IP".toList
  let members := { members with fsip := if iret ≠ 0 then "0.0.0.0".toList else fsip }
  let (fsport, iret) := file.getIntValue freeswitch "PORT".toList
  let members := { members with fsport := if iret ≠ 0 then 8021 else fsport }
  let (fspwd, iret) := file.getStringValue freeswitch "PSSWD".toList
  let members := { members with fspwd := if iret ≠ 0 then "tx@infosun".toList else fspwd }
  let (fsxmlpath, iret) := file.getStringValue freeswitch "XMLPATH".toList
  let members := { members with
    fsxmlpath :=
      if iret ≠ 0 then "/usr/local/freeswitch/conf/sip_profiles/external/".toList else fsxmlpath }
  let (prefixNumber, iret) := file.getStringValue txbeta "prefix".toList
  let members := { members with prefixNumber := if iret ≠ 0 then "88".toList else prefixNumber }
  let (serverIP, iret) := file.getStringValue txbeta "serverip".toList
  let members := { members with serverIP }
  -- a server address that is missing sets the prefix
  let members := if iret ≠ 0 then { members with prefixNumber := "88".toList } else members
  let (wsport, iret) := file.getIntValue txbeta "wsport".toList
  let members := { members with wsbussinessPort := if iret ≠ 0 then 10081 else wsport }
  let (tcpport, iret) := file.getIntValue txbeta "outcalltcpport".toList
  { members with tcpbussinessPort := if iret ≠ 0 then 10090 else tcpport }

/-- `loadConfigini`, with the text of `Service.ini`, none when it cannot be opened. -/
def loadConfigini (service : Option Text) (members : Settings) : Except Fault Settings := do
  let (code, file) ← IniFile.load {} service
  pure (if code = 0 then assign file members else members)

end Settings

end CallCenter.Model
