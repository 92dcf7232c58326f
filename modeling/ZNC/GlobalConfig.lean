/-
The global configuration: `WriteConfig`, `LoadGlobal` and `RehashConfig` of `src/znc.cpp`, with the listeners of `src/Listener.cpp`.

`LoadGlobal` serves the start of the process and a rehash. It loads the modules of the file, clears some lists before it reads
them, assigns each setting whose key is there, unloads the modules that the file does not have, and opens all listeners anew.

Model: the settings that are one value each are known by what they set, so that the keys of `LoadGlobal` are a table. Nothing looks
at what is left of the config, so its keys are looked up without being taken out; a listener takes its own out, since nothing
may be left in its block. What the sockets, the files and the modules answer is in `Env`; the EDP flags are those of the socket
library. Of a config that is refused only the error is kept. Hooks of modules and the texts for the terminal are not there.

Results:
- `assign_lawful`: an assignment fails or goes through whatever the state, and changes one setting only;
- `opens_all`: the listeners of a config are opened in a way that does not depend on the rest of the state.
-/
import ZNC.Lib.Assignments
import ZNC.PathPrefix
import ZNC.SavedBuffer
import ZNC.UserConfig

namespace ZNC.Global

open CString Config Function
open NetworkClone (CModule CModules SameMod validateModuleName addTable look Full uintText boolText nonempty valuesOf)
open SaveBuff (firstLine)

/-! ## Model -/

inductive EAddrType where
  | ADDR_ALL
  | ADDR_IPV4ONLY
  | ADDR_IPV6ONLY
deriving DecidableEq

inductive EAcceptType where
  | ACCEPT_IRC
  | ACCEPT_HTTP
  | ACCEPT_ALL
deriving DecidableEq

/-- where a `CTCPListener` or a `CUnixListener` listens -/
inductive Address where
  | tcp (eAddr : EAddrType) (uPort : UInt16) (sBindHost : CString)
  | unix (sPath sGid : CString) (iMode : ℤ)
deriving DecidableEq

structure CListener where
  address : Address
  bSSL : Bool
  sURIPrefix : CString
  eAcceptType : EAcceptType
deriving DecidableEq

inductive SSLProtocol where
  | SSLv2
  | SSLv3
  | TLSv1
  | TLSv1_1
  | TLSv1_2
deriving DecidableEq

inductive StringSetting where
  | skinName
  | statusPrefix
  | pidFile
  | sslCertFile
  | sslKeyFile
  | sslDHParamFile
  | sslCiphers
  | sslProtocols
deriving DecidableEq

inductive UIntSetting where
  | connectDelay
  | anonIPLimit
  | maxBufferSize
  /-- the TTL of `m_sConnectThrottle` in milliseconds -/
  | connectThrottle
  | configWriteDelay
deriving DecidableEq

inductive BoolSetting where
  | protectWebSessions
  | hideVersion
  | authOnlyViaModule
deriving DecidableEq

inductive Setting where
  | string (setting : StringSetting)
  | uint (setting : UIntSetting)
  | bool (setting : BoolSetting)
deriving DecidableEq

/-- what the process runs in -/
structure Env where
  /-- `HAVE_LIBSSL` -/
  bLibSSL : Bool
  /-- `HAVE_IPV6` -/
  bIPv6 : Bool
  /-- `CFile::GetHomePath()` -/
  sHomePath : CString
  sZNCPath : CString
  /-- the file is there, or the terminal had it made -/
  pemFile : CString → Bool
  /-- `Csock::EDP_SSL` -/
  edpSSL : UInt32
  edp : SSLProtocol → UInt32
  /-- what loading a module with some arguments says when it fails -/
  loadError : CString → CString → Option CString
  /-- what listening beside others says when it fails -/
  listenError : List Address → Address → Option CString

structure CZNC where
  strings : StringSetting → CString
  uints : UIntSetting → UInt32
  bools : BoolSetting → Bool
  uDisabledSSLProtocols : UInt32
  vsTrustedProxies : VCString
  vsMotd : VCString
  ssClientCapBlacklist : SCString
  ssServerCapBlacklist : SCString
  modules : CModules
  vpListeners : List CListener

/-- the process after `InitDirs` -/
def CZNC.new (env : Env) : CZNC where
  strings
    | .sslCertFile => env.sZNCPath ++ lit "/znc.pem"
    | _ => []
  uints
    | .connectDelay => 5
    | .anonIPLimit => 10
    | .maxBufferSize => 500
    | .connectThrottle => 30000
    | .configWriteDelay => 0
  bools
    | .protectWebSessions => true
    | .hideVersion => false
    | .authOnlyViaModule => false
  uDisabledSSLProtocols := env.edpSSL ||| env.edp .TLSv1 ||| env.edp .TLSv1_1
  vsTrustedProxies := []
  vsMotd := []
  ssClientCapBlacklist := .empty
  ssServerCapBlacklist := .empty
  modules := .empty
  vpListeners := []

namespace CZNC

/-! ### Setters -/

def putString (z : CZNC) (setting : StringSetting) (s : CString) : CZNC :=
  { z with strings := update z.strings setting s }

def putUInt (z : CZNC) (setting : UIntSetting) (u : UInt32) : CZNC :=
  { z with uints := update z.uints setting u }

def putBool (z : CZNC) (setting : BoolSetting) (b : Bool) : CZNC :=
  { z with bools := update z.bools setting b }

def setStatusPrefix (z : CZNC) (s : CString) : CZNC := z.putString .statusPrefix (if s = [] then lit "*" else s)

def setConnectDelay (z : CZNC) (i : UInt32) : CZNC := z.putUInt .connectDelay (if i < 1 then 1 else i)

/-- `SetServerThrottle(i)`, a product of 32 bits -/
def setServerThrottle (z : CZNC) (i : UInt32) : CZNC := z.putUInt .connectThrottle (i * 1000)

end CZNC

def Env.sslFlag (env : Env) (sProtocol : CString) : Option UInt32 :=
  if sProtocol.equals (lit "All") then some (~~~0)
  else if sProtocol.equals (lit "SSLv2") then some (env.edp .SSLv2)
  else if sProtocol.equals (lit "SSLv3") then some (env.edp .SSLv3)
  else if sProtocol.equals (lit "TLSv1") then some (env.edp .TLSv1)
  else if sProtocol.equals (lit "TLSv1.1") then some (env.edp .TLSv1_1)
  else if sProtocol.equals (lit "TLSv1.2") then some (env.edp .TLSv1_2)
  else none

/-- one name of the loop -/
def Env.sslStep (env : Env) (uDisabledProtocols : UInt32) (sProtocol : CString) : Option UInt32 :=
  let bEnable := sProtocol.startsWith (lit "+")
  let sProtocol := sProtocol.trimPrefix_n (lit "+")
  let bDisable := sProtocol.startsWith (lit "-")
  let sProtocol := sProtocol.trimPrefix_n (lit "-")
  (env.sslFlag sProtocol).map fun uFlag =>
    if bEnable then uDisabledProtocols &&& ~~~uFlag
    else if bDisable then uDisabledProtocols ||| uFlag
    else ~~~uFlag

/-- `uDisabledProtocols` after the loop -/
def Env.sslDisabled (env : Env) (sProtocols : CString) : Option UInt32 :=
  ((sProtocols.split 0x20 false).map trim).foldlM env.sslStep env.edpSSL

namespace CZNC

def putSSLProtocols (z : CZNC) (sProtocols : CString) (u : UInt32) : CZNC :=
  { z.putString .sslProtocols sProtocols with uDisabledSSLProtocols := u }

def setSSLProtocols (env : Env) (z : CZNC) (sProtocols : CString) : Option CZNC :=
  (env.sslDisabled sProtocols).map (z.putSSLProtocols sProtocols)

def addTrustedProxy (z : CZNC) (sHost : CString) : CZNC :=
  if sHost = [] ∨ z.vsTrustedProxies.any (·.equals sHost) then z
  else { z with vsTrustedProxies := z.vsTrustedProxies ++ [sHost] }

def addMotd (z : CZNC) (sMessage : CString) : CZNC :=
  if sMessage = [] then z else { z with vsMotd := z.vsMotd ++ [sMessage] }

end CZNC

/-! ### Files -/

/-- `ChangeDir("", sFile)` -/
def Env.location (env : Env) (sFile : CString) : CString := PathPrefix.changeDir env.sHomePath [] sFile []

namespace CZNC

def getPemLocation (env : Env) (z : CZNC) : CString := env.location (z.strings .sslCertFile)

def getKeyLocation (env : Env) (z : CZNC) : CString :=
  env.location (if z.strings .sslKeyFile = [] then z.strings .sslCertFile else z.strings .sslKeyFile)

def getDHParamLocation (env : Env) (z : CZNC) : CString :=
  env.location (if z.strings .sslDHParamFile = [] then z.strings .sslCertFile else z.strings .sslDHParamFile)

end CZNC

/-! ### Modules -/

/-- `LoadModule(sModule, sArgs)`; there is no module without a name -/
def loadModule (env : Env) (ms : CModules) (sModule sArgs : CString) : Except CString CModules :=
  if hvalid : validateModuleName sModule = true then
    if hfind : ms.findModule sModule = none then
      if hne : sModule = [] then .error (lit "Unable to find module ")
      else match env.loadError sModule sArgs with
        | some sModRet => .error sModRet
        | none => .ok ⟨ms.vMods ++ [⟨sModule, sArgs, hne, hvalid⟩], CModules.distinct_concat hfind⟩
    else .error (lit "Module " ++ sModule ++ lit " already loaded.")
  else .error (lit "Module names can only contain letters, numbers and underscores, [" ++ sModule ++ lit "] is invalid")

theorem distinct_unload (ms : CModules) (sModule : CString) :
    Distinct SameMod (ms.vMods.eraseP fun pMod => sModule.equals pMod.sModName) := ms.distinct.eraseP _

def unloadModule (ms : CModules) (sModule : CString) : CModules :=
  ⟨ms.vMods.eraseP fun pMod => sModule.equals pMod.sModName, distinct_unload ms sModule⟩

/-- `ReloadModule(sModule, sArgs)` of a module that is there -/
def reloadModule (env : Env) (ms : CModules) (sModule sArgs : CString) : Except CString CModules :=
  loadModule env (unloadModule ms sModule) sModule sArgs

/-- the first two numbers of a version -/
def savedVersion (config : CConfig) : UInt32 × UInt32 :=
  let sSavedVersion := (config.findStringEntry (lit "version")).1.getD []
  ((sSavedVersion.token 0 false (ch '.') false).toUInt, (sSavedVersion.token 1 false (ch '.') false).toUInt)

/-- `tSavedVersion < make_tuple(uMajor, uMinor)` -/
def older (t : UInt32 × UInt32) (uMajor uMinor : UInt32) : Bool := t.1 < uMajor || (t.1 = uMajor && t.2 < uMinor)

/-- the name and the arguments of a line; old files have another name for one module -/
def modLine (tSavedVersion : UInt32 × UInt32) (sModLine : CString) : CString × CString :=
  let sModName := sModLine.token 0 false 0x20 false
  (if sModName = lit "saslauth" ∧ older tSavedVersion 0 207 then lit "cyrusauth" else sModName,
    sModLine.token 1 true 0x20 false)

/-- the modules that are to be loaded; old files have one more -/
def modLines (config : CConfig) : List (CString × CString) :=
  let tSavedVersion := savedVersion config
  ((config.findStringVector (lit "loadmodule")).1 ++ if older tSavedVersion 1 9 then [lit "corecaps"] else []).map
    (modLine tSavedVersion)

/-- the modules, and the names and arguments in `msModules` -/
structure Loading where
  modules : CModules
  msModules : MCString

/-- one line of the loop -/
def loadLine (env : Env) (st : Loading) (line : CString × CString) : Except CString Loading :=
  if (st.msModules.find line.1).isSome then .error (lit "Module [" ++ line.1 ++ lit "] already loaded")
  else
    (match st.modules.findModule line.1 with
      | none => loadModule env st.modules line.1 line.2
      | some pOldMod => if pOldMod.sArgs ≠ line.2 then reloadModule env st.modules line.1 line.2 else .ok st.modules).map
      fun modules => ⟨modules, st.msModules.insert line.1 line.2⟩

def loadLines (env : Env) (lines : List (CString × CString)) (modules : CModules) : Except CString Loading :=
  lines.foldlM (loadLine env) ⟨modules, .empty⟩

def unloadRemovedModules (msModules : MCString) (ms : CModules) : CModules :=
  let ssUnload : SCString :=
    .ofList ((ms.vMods.filter fun pCurMod => (msModules.find pCurMod.sModName).isNone).map CModule.sModName)
  ssUnload.toList.foldl unloadModule ms

/-! ### Settings -/

def Setting.key : Setting → CString
  | .string .pidFile => lit "pidfile"
  | .string .statusPrefix => lit "statusprefix"
  | .string .sslCertFile => lit "sslcertfile"
  | .string .sslKeyFile => lit "sslkeyfile"
  | .string .sslDHParamFile => lit "ssldhparamfile"
  | .string .sslCiphers => lit "sslciphers"
  | .string .skinName => lit "skin"
  | .uint .connectDelay => lit "connectdelay"
  | .uint .connectThrottle => lit "serverthrottle"
  | .uint .anonIPLimit => lit "anoniplimit"
  | .uint .maxBufferSize => lit "maxbuffersize"
  | .bool .protectWebSessions => lit "protectwebsessions"
  | .bool .hideVersion => lit "hideversion"
  | .bool .authOnlyViaModule => lit "authonlyviamodule"
  | .string .sslProtocols => lit "sslprotocols"
  | .uint .configWriteDelay => lit "configwritedelay"

/-- the order of `LoadGlobal` -/
def settings : List Setting :=
  [.string .pidFile, .string .statusPrefix, .string .sslCertFile, .string .sslKeyFile, .string .sslDHParamFile,
    .string .sslCiphers, .string .skinName, .uint .connectDelay, .uint .connectThrottle, .uint .anonIPLimit,
    .uint .maxBufferSize, .bool .protectWebSessions, .bool .hideVersion, .bool .authOnlyViaModule,
    .string .sslProtocols,
    .uint .configWriteDelay]

/-- what `LoadGlobal` does with the value of a key -/
def assign (env : Env) (setting : Setting) (sVal : CString) (z : CZNC) : Except CString CZNC :=
  match setting with
  | .string .sslProtocols =>
    match z.setSSLProtocols env sVal with
    | some z => .ok z
    | none => .error []
  | .string setting => .ok (z.putString setting sVal)
  | .uint .connectDelay => .ok (z.setConnectDelay sVal.toUInt)
  | .uint .connectThrottle => .ok (z.setServerThrottle sVal.toUInt)
  | .uint setting => .ok (z.putUInt setting sVal.toUInt)
  | .bool setting => .ok (z.putBool setting sVal.toBool)

/-- the first value of the key of a setting -/
def entryOf (config : CConfig) (setting : Setting) : Option CString := (config.findStringEntry setting.key).1

def loadSettings (env : Env) (config : CConfig) (z : CZNC) : Except CString CZNC :=
  Assignments.assignAll (assign env) (entryOf config) settings z

/-! ### Listeners -/

/-- an octal number of a stream, in the bounds of an `int`; no digits are zero -/
def readOct (s : CString) : ℤ :=
  let p := s.dropWhile isspace
  let bNegative := p.head? = some (ch '-')
  let p := if bNegative ∨ p.head? = some (ch '+') then p.drop 1 else p
  let n := (p.takeWhile fun c => ch '0' ≤ c && c ≤ ch '7').foldl (fun (n : ℕ) c => 8 * n + (c.toNat - 48)) 0
  max (-2 ^ 31) (min (2 ^ 31 - 1) (if bNegative then -n else n))

/-- an octal number as a stream prints it -/
def octText (n : ℕ) : CString := (Nat.toDigits 8 n).map Char.toUInt8

/-- `m_iMode` of the constructor of `CUnixListener` -/
def modeOf (sMode : CString) : ℤ := if sMode = [] then -1 else readOct sMode

/-- `GetMode()`: a negative number is printed with its 32 bits -/
def getMode (iMode : ℤ) : CString := if iMode ≠ -1 then octText (iMode % 2 ^ 32).toNat else []

namespace CZNC

def checkSslAndPemFile (env : Env) (z : CZNC) (bSSL : Bool) : Except CString Unit :=
  if env.bLibSSL then
    if bSSL ∧ env.pemFile (z.getPemLocation env) = false then
      .error (lit "Unable to locate pem file: " ++ z.getPemLocation env)
    else .ok ()
  else if bSSL then .error (lit "SSL is not enabled")
  else .ok ()

def finishAddingListener (env : Env) (z : CZNC) (pListener : CListener) : Except CString CZNC :=
  match env.listenError (z.vpListeners.map CListener.address) pListener.address with
  | some sError => .error (lit "Unable to bind: " ++ sError)
  | none => .ok { z with vpListeners := z.vpListeners ++ [pListener] }

def addTCPListener (env : Env) (z : CZNC) (uPort : UInt16) (sBindHost sURIPrefix : CString) (bSSL : Bool)
    (eAddr : EAddrType)
    (eAccept : EAcceptType) : Except CString CZNC :=
  if !env.bIPv6 && eAddr = .ADDR_IPV6ONLY then .error (lit "IPv6 is not enabled")
  else do
    z.checkSslAndPemFile env bSSL
    if uPort = 0 then .error (lit "Invalid port")
    else z.finishAddingListener env ⟨.tcp eAddr uPort sBindHost, bSSL, sURIPrefix, eAccept⟩

def addUnixListener (env : Env) (z : CZNC) (sPath sURIPrefix : CString) (bSSL : Bool) (eAccept : EAcceptType)
    (sGroup sMode : CString) : Except CString CZNC := do
  z.checkSslAndPemFile env bSSL
  z.finishAddingListener env ⟨.unix sPath sGroup (modeOf sMode), bSSL, sURIPrefix, eAccept⟩

/-- `AddListener(sLine)`: a line of an old config -/
def addListenerLine (env : Env) (z : CZNC) (sLine : CString) : Except CString CZNC :=
  let sName := sLine.token 0 false 0x20 false
  let sValue := sLine.token 1 true 0x20 false
  let eAddr : EAddrType :=
    if sName.equals (lit "Listener6") then .ADDR_IPV6ONLY
    else if sName.equals (lit "Listen4") || sName.equals (lit "Listen") ||
      sName.equals (lit "Listener4") then .ADDR_IPV4ONLY
    else .ADDR_ALL
  let eAccept : EAcceptType :=
    if sValue.startsWith (lit "irc_only ") then .ACCEPT_IRC
    else if sValue.startsWith (lit "web_only ") then .ACCEPT_HTTP
    else .ACCEPT_ALL
  let sValue :=
    if eAccept = .ACCEPT_IRC then sValue.trimPrefix_n (lit "irc_only ") else sValue.trimPrefix_n (lit "web_only ")
  let sValue : CString := if eAddr = .ADDR_IPV4ONLY then sValue.cStr.map fun c =>
    if c = ch ':' then 0x20 else c else sValue
  let bHost := sValue.contains (lit " ")
  let sBindHost := if bHost then sValue.token 0 false 0x20 false else []
  let sPort : CString := if bHost then sValue.token 1 true 0x20 false else sValue
  z.addTCPListener env (sPort.trimPrefix_n (lit "+")).toUShort sBindHost [] (sPort.startsWith (lit "+")) eAddr eAccept

end CZNC

/-- the entries of a block that are taken out one after the other -/
abbrev Taking : Type → Type := StateT CConfig (Except CString)

namespace Taking

def findStringEntry (sName : CString) : Taking (Option CString) := fun config => .ok (config.findStringEntry sName)

def findBoolEntry (sName : CString) (bDefault : Bool) : Taking Bool := do
  return match ← findStringEntry sName with
    | some s => s.toBool
    | none => bDefault

def error {α : Type} (sError : CString) : Taking α := fun _ => .error sError

end Taking

/-- a prefix starts with a slash and ends without one -/
def uriPrefix (sURIPrefix : CString) : CString :=
  if sURIPrefix = [] then []
  else
    let sURIPrefix := if sURIPrefix.startsWith (lit "/") then sURIPrefix else lit "/" ++ sURIPrefix
    if sURIPrefix.endsWith (lit "/") then sURIPrefix.trimRight_n (lit "/") else sURIPrefix

def acceptType (bIRC bWeb : Bool) : Option EAcceptType :=
  match bIRC, bWeb with
  | true, true => some .ACCEPT_ALL
  | true, false => some .ACCEPT_IRC
  | false, true => some .ACCEPT_HTTP
  | false, false => none

def addrType (b4 b6 : Bool) : Option EAddrType :=
  match b4, b6 with
  | true, true => some .ADDR_ALL
  | true, false => some .ADDR_IPV4ONLY
  | false, true => some .ADDR_IPV6ONLY
  | false, false => none

/-- what a block says about a listener: where it listens, and its mode as a text -/
inductive Parsed where
  | tcp (uPort : UInt16) (sBindHost sURIPrefix : CString) (bSSL : Bool) (eAddr : EAddrType) (eAccept : EAcceptType)
  | unix (sPath sURIPrefix : CString) (bSSL : Bool) (eAccept : EAcceptType) (sGroup sMode : CString)
deriving DecidableEq

/-- `AddListener(pConfig)` up to the listener itself -/
def parseListener (env : Env) : Taking Parsed := do
  let sPort ← Taking.findStringEntry (lit "port")
  let sPath ← if sPort.isNone then Taking.findStringEntry (lit "path") else pure none
  if sPort.isNone ∧ sPath.isNone then Taking.error (lit "No port and no path given")
  else
    let bSSL ← Taking.findBoolEntry (lit "ssl") false
    let bIRC ← Taking.findBoolEntry (lit "allowirc") true
    let bWeb ← Taking.findBoolEntry (lit "allowweb") true
    let sURIPrefix ← Taking.findStringEntry (lit "uriprefix")
    match acceptType bIRC bWeb with
    | none => Taking.error (lit "Either Web or IRC or both should be selected")
    | some eAccept =>
      let sURIPrefix := uriPrefix (sURIPrefix.getD [])
      match sPort with
      | some sPort =>
        let sBindHost ← Taking.findStringEntry (lit "host")
        let b4 ← Taking.findBoolEntry (lit "ipv4") true
        let b6 ← Taking.findBoolEntry (lit "ipv6") env.bIPv6
        match addrType b4 b6 with
        | none => Taking.error (lit "No address family given")
        | some eAddr => return .tcp sPort.toUShort (sBindHost.getD []) sURIPrefix bSSL eAddr eAccept
      | none =>
        let sGroup ← Taking.findStringEntry (lit "group")
        let sMode ← Taking.findStringEntry (lit "mode")
        return .unix (sPath.getD []) sURIPrefix bSSL eAccept (sGroup.getD []) (sMode.getD [])

namespace CZNC

/-- the listener of a block -/
def addParsed (env : Env) (z : CZNC) : Parsed → Except CString CZNC
  | .tcp uPort sBindHost sURIPrefix bSSL eAddr eAccept =>
      z.addTCPListener env uPort sBindHost sURIPrefix bSSL eAddr eAccept
  | .unix sPath sURIPrefix bSSL eAccept sGroup sMode => z.addUnixListener env sPath sURIPrefix bSSL eAccept sGroup sMode

/-- `AddListener(pSubConf)` in `LoadListeners`, which wants nothing to be left -/
def addListener (env : Env) (z : CZNC) (pSubConf : CConfig) : Except CString CZNC := do
  let (parsed, pSubConf) ← parseListener env pSubConf
  let z ← z.addParsed env parsed
  if pSubConf.isEmpty then return z else .error (lit "Unhandled lines in Listener config!")

/-- the keys of listeners in old configs -/
def szListenerEntries : VCString :=
  [lit "listen", lit "listen6", lit "listen4", lit "listener", lit "listener6", lit "listener4"]

/-- the lines of these keys, each with its key -/
def listenerLines (config : CConfig) : VCString :=
  szListenerEntries.flatMap fun szEntry =>
    (config.findStringVector szEntry).1.map fun sListener => szEntry ++ lit " " ++ sListener

def loadListeners (env : Env) (config : CConfig) (z : CZNC) : Except CString CZNC := do
  let z := { z with vpListeners := [] }
  let z ← (listenerLines config).foldlM (addListenerLine env) z
  let z ← (config.findSubConfig (lit "listener")).1.foldlM (fun z subIt => addListener env z subIt.2) z
  if z.vpListeners = [] then .error (lit "You must supply at least one Listener in your config.") else return z

/-! ### Loading and writing -/

/-- the lists that `LoadGlobal` clears before it reads them -/
def loadLists (config : CConfig) (z : CZNC) : CZNC :=
  let z := (config.findStringVector (lit "motd")).1.foldl addMotd { z with vsMotd := [] }
  let z := (config.findStringVector (lit "trustedproxy")).1.foldl addTrustedProxy { z with vsTrustedProxies := [] }
  { z with
    ssClientCapBlacklist := .ofList (config.findStringVector (lit "disableclientcap")).1
    ssServerCapBlacklist := .ofList (config.findStringVector (lit "disableservercap")).1 }

def loadGlobal (env : Env) (config : CConfig) (z : CZNC) : Except CString CZNC := do
  let st ← loadLines env (modLines config) z.modules
  let z ← loadSettings env config (loadLists config { z with modules := st.modules })
  loadListeners env config { z with modules := unloadRemovedModules st.msModules z.modules }

end CZNC

/-- `ReadConfig(config)`: the version is taken out and put back behind the others -/
def readConfig (sFile : CString) : Except CString CConfig := do
  let config ← parse sFile
  let (sSavedVersion, config) := config.findStringEntry (lit "version")
  let config := config.addKeyValuePair (lit "version") (sSavedVersion.getD [])
  if sSavedVersion.getD [] = [] then .error [] else return config

def CZNC.rehashConfig (env : Env) (sFile : CString) (z : CZNC) : Except CString CZNC :=
  (readConfig sFile).bind fun config => z.loadGlobal env config

/-- `CListener::ToConfig()` and those of its two classes -/
def CListener.table (pListener : CListener) : List (CString × VCString) :=
  [(lit "URIPrefix", [pListener.sURIPrefix ++ lit "/"]),
    (lit "SSL", [boolText pListener.bSSL]),
    (lit "AllowIRC", [boolText (pListener.eAcceptType ≠ .ACCEPT_HTTP)]),
    (lit "AllowWeb", [boolText (pListener.eAcceptType ≠ .ACCEPT_IRC)])] ++
    match pListener.address with
    | .tcp eAddr uPort sBindHost =>
      [(lit "Host", [sBindHost]),
        (lit "Port", [uintText uPort.toNat]),
        (lit "IPv4", [boolText (eAddr ≠ .ADDR_IPV6ONLY)]),
        (lit "IPv6", [boolText (eAddr ≠ .ADDR_IPV4ONLY)])]
    | .unix sPath sGid iMode =>
      [(lit "Path", [sPath]),
        (lit "Group", [sGid]),
        (lit "Mode", [getMode iMode])]

def CListener.toConfig (pListener : CListener) : CConfig := addTable pListener.table .empty

def VERSION_STR : CString := lit "1.11.x"

namespace CZNC

/-- what `WriteConfig` writes; an empty value is not written -/
def table (env : Env) (z : CZNC) : List (CString × VCString) :=
  [(lit "AnonIPLimit", [uintText (z.uints .anonIPLimit).toNat]),
    (lit "MaxBufferSize", [uintText (z.uints .maxBufferSize).toNat]),
    (lit "SSLCertFile", [z.getPemLocation env]),
    (lit "SSLKeyFile", [z.getKeyLocation env]),
    (lit "SSLDHParamFile", [z.getDHParamLocation env]),
    (lit "ProtectWebSessions", [boolText (z.bools .protectWebSessions)]),
    (lit "HideVersion", [boolText (z.bools .hideVersion)]),
    (lit "AuthOnlyViaModule", [boolText (z.bools .authOnlyViaModule)]),
    (lit "Version", [VERSION_STR]),
    (lit "ConfigWriteDelay", [uintText (z.uints .configWriteDelay).toNat]),
    (lit "ConnectDelay", [uintText (z.uints .connectDelay).toNat]),
    (lit "ServerThrottle", [uintText (z.uints .connectThrottle / 1000).toNat]),
    (lit "PidFile", [firstLine (z.strings .pidFile)]),
    (lit "Skin", [firstLine (z.strings .skinName)]),
    (lit "StatusPrefix", [firstLine (z.strings .statusPrefix)]),
    (lit "SSLCiphers", [z.strings .sslCiphers]),
    (lit "SSLProtocols", [z.strings .sslProtocols]),
    (lit "DisableClientCap", z.ssClientCapBlacklist.toList.map firstLine),
    (lit "DisableServerCap", z.ssServerCapBlacklist.toList.map firstLine),
    (lit "Motd", z.vsMotd.map firstLine),
    (lit "TrustedProxy", z.vsTrustedProxies.map firstLine),
    (lit "LoadModule", z.modules.vMods.map fun pMod =>
      firstLine pMod.sModName ++ if pMod.sArgs = [] then [] else lit " " ++ firstLine pMod.sArgs)]

/-- the listeners under numbered names -/
def listenerBlocks (z : CZNC) : List (CString × CConfig) :=
  z.vpListeners.mapIdx fun l pListener => (lit "listener" ++ uintText l, pListener.toConfig)

/-- the config of `WriteConfig` without the users -/
def toConfig (env : Env) (z : CZNC) : CConfig :=
  addTable (z.table env)
    (z.listenerBlocks.foldl (fun c block => (c.addSubConfig (lit "Listener") block.1 block.2).2) CConfig.empty)

end CZNC

/-! ## Settings one by one -/

/-- two states have the same value of a setting; with the SSL protocols goes what they disable -/
def Agree (setting : Setting) (z z' : CZNC) : Prop :=
  match setting with
  | .string setting =>
    z.strings setting = z'.strings setting ∧
      (setting = .sslProtocols → z.uDisabledSSLProtocols = z'.uDisabledSSLProtocols)
  | .uint setting => z.uints setting = z'.uints setting
  | .bool setting => z.bools setting = z'.bools setting

theorem agree_equivalence (setting : Setting) : Equivalence (Agree setting) := by
  cases setting with
  | string setting =>
    refine ⟨fun z => ⟨rfl, fun _ => rfl⟩, fun h => ⟨h.1.symm, fun heq => (h.2 heq).symm⟩, fun h h' => ?_⟩
    exact ⟨h.1.trans h'.1, fun heq => (h.2 heq).trans (h'.2 heq)⟩
  | uint setting => exact ⟨fun _ => rfl, Eq.symm, Eq.trans⟩
  | bool setting => exact ⟨fun _ => rfl, Eq.symm, Eq.trans⟩

/-- two states differ in one setting at most -/
def Frame (setting : Setting) (z z' : CZNC) : Prop :=
  (∀ other, other ≠ setting → Agree other z' z) ∧
    { z' with strings := z.strings, uints := z.uints, bools := z.bools,
              uDisabledSSLProtocols := z.uDisabledSSLProtocols } = z

theorem CZNC.strings_putString (z : CZNC) (setting : StringSetting) (s : CString) :
    (z.putString setting s).strings setting = s :=
  update_self _ _ _

theorem CZNC.uints_putUInt (z : CZNC) (setting : UIntSetting) (u : UInt32) : (z.putUInt setting u).uints setting = u :=
  update_self _ _ _

theorem CZNC.bools_putBool (z : CZNC) (setting : BoolSetting) (b : Bool) : (z.putBool setting b).bools setting = b :=
  update_self _ _ _

variable (env : Env) {z : CZNC}

theorem putString_spec {setting : StringSetting} (h : setting ≠ .sslProtocols) (s : CString) :
    Frame (.string setting) z (z.putString setting s) ∧
      ∀ z', Agree (.string setting) (z.putString setting s) (CZNC.putString z' setting s) := by
  refine ⟨⟨fun other hother => ?_, rfl⟩, fun z' => ⟨?_, fun heq => absurd heq h⟩⟩
  · cases other with
    | string other => exact ⟨update_of_ne (fun heq => hother (congrArg Setting.string heq)) _ _, fun _ => rfl⟩
    | uint other => exact rfl
    | bool other => exact rfl
  · rw [CZNC.strings_putString, CZNC.strings_putString]

theorem putUInt_spec (setting : UIntSetting) (u : UInt32) :
    Frame (.uint setting) z (z.putUInt setting u) ∧
      ∀ z', Agree (.uint setting) (z.putUInt setting u) (CZNC.putUInt z' setting u) := by
  refine ⟨⟨fun other hother => ?_, rfl⟩, fun z' => ?_⟩
  · cases other with
    | uint other => exact update_of_ne (fun heq => hother (congrArg Setting.uint heq)) _ _
    | string other => exact ⟨rfl, fun _ => rfl⟩
    | bool other => exact rfl
  · rw [Agree, CZNC.uints_putUInt, CZNC.uints_putUInt]

theorem putBool_spec (setting : BoolSetting) (b : Bool) :
    Frame (.bool setting) z (z.putBool setting b) ∧
      ∀ z', Agree (.bool setting) (z.putBool setting b) (CZNC.putBool z' setting b) := by
  refine ⟨⟨fun other hother => ?_, rfl⟩, fun z' => ?_⟩
  · cases other with
    | bool other => exact update_of_ne (fun heq => hother (congrArg Setting.bool heq)) _ _
    | string other => exact ⟨rfl, fun _ => rfl⟩
    | uint other => exact rfl
  · rw [Agree, CZNC.bools_putBool, CZNC.bools_putBool]

/-- **One assignment:** it sets its own setting only, to what its value makes of any state. -/
theorem assign_spec {setting : Setting} {sVal : CString} {r : CZNC} (h : assign env setting sVal z = .ok r) :
    Frame setting z r ∧ ∀ z', ∃ r', assign env setting sVal z' = .ok r' ∧ Agree setting r r' := by
  cases setting with
  | string setting =>
    by_cases hssl : setting = .sslProtocols
    · subst hssl
      rw [assign, CZNC.setSSLProtocols] at h
      cases hu : env.sslDisabled sVal with
      | none =>
        rw [hu] at h
        cases h
      | some u =>
        rw [hu] at h
        obtain rfl := Except.ok.inj h
        refine ⟨⟨fun other hother => ?_, rfl⟩, fun z' => ⟨z'.putSSLProtocols sVal u, ?_, ?_, fun _ => rfl⟩⟩
        · cases other with
          | string other =>
            have hne : other ≠ .sslProtocols := fun heq => hother (congrArg Setting.string heq)
            exact ⟨update_of_ne hne _ _, fun heq => absurd heq hne⟩
          | uint other => exact rfl
          | bool other => exact rfl
        · rw [assign, CZNC.setSSLProtocols, hu]
          rfl
        · exact (z.strings_putString .sslProtocols sVal).trans (z'.strings_putString .sslProtocols sVal).symm
    · have hput (z : CZNC) : assign env (.string setting) sVal z = .ok (z.putString setting sVal) := by
        cases setting <;> first | rfl | exact absurd rfl hssl
      rw [hput] at h
      obtain rfl := Except.ok.inj h
      obtain ⟨hframe, hagree⟩ := @putString_spec z setting hssl sVal
      exact ⟨hframe, fun z' => ⟨_, hput z', hagree z'⟩⟩
  | uint setting =>
    obtain ⟨u, hput⟩ : ∃ u, ∀ z, assign env (.uint setting) sVal z = .ok (z.putUInt setting u) := by
      cases setting <;> exact ⟨_, fun _ => rfl⟩
    rw [hput] at h
    obtain rfl := Except.ok.inj h
    obtain ⟨hframe, hagree⟩ := @putUInt_spec z setting u
    exact ⟨hframe, fun z' => ⟨_, hput z', hagree z'⟩⟩
  | bool setting =>
    obtain rfl := Except.ok.inj h
    obtain ⟨hframe, hagree⟩ := @putBool_spec z setting sVal.toBool
    exact ⟨hframe, fun z' => ⟨_, rfl, hagree z'⟩⟩

theorem assign_lawful : Assignments.Lawful Agree (assign env) where
  equiv := agree_equivalence
  same z' h := (assign_spec env h).2 z'
  frame h hne := (assign_spec env h).1.1 _ hne

theorem nodup_settings : settings.Nodup := by decide

theorem mem_settings (setting : Setting) : setting ∈ settings := by
  cases setting with
  | string setting => cases setting <;> decide
  | uint setting => cases setting <;> decide
  | bool setting => cases setting <;> decide

structure SameRest (z z' : CZNC) : Prop where
  motd : z.vsMotd = z'.vsMotd
  proxies : z.vsTrustedProxies = z'.vsTrustedProxies
  clientCaps : z.ssClientCapBlacklist = z'.ssClientCapBlacklist
  serverCaps : z.ssServerCapBlacklist = z'.ssServerCapBlacklist
  modules : z.modules = z'.modules
  listeners : z.vpListeners = z'.vpListeners

theorem loadSettings_rest {env : Env} {config : CConfig} {r : CZNC} (h : loadSettings env config z = .ok r) :
    SameRest r z := by
  rw [loadSettings] at h
  generalize settings = ks at h
  induction ks generalizing z with
  | nil =>
    obtain rfl := Except.ok.inj h
    exact ⟨rfl, rfl, rfl, rfl, rfl, rfl⟩
  | cons setting ks ih =>
    cases hsrc : entryOf config setting with
    | none =>
      rw [Assignments.assignAll_none hsrc] at h
      exact ih h
    | some sVal =>
      rw [Assignments.assignAll_some hsrc] at h
      obtain ⟨t, ht, hrest⟩ := Assignments.bind_ok h
      have hframe := (assign_spec env ht).1.2
      obtain ⟨h1, h2, h3, h4, h5, h6⟩ := ih hrest
      rw [← hframe]
      exact ⟨h1, h2, h3, h4, h5, h6⟩

/-! ## Opening -/

/-- a part of `LoadListeners`: it changes the listeners only, in a way that does not depend on the rest of the state, and
depends on the certificate file whether it fails -/
structure Opens (f : CZNC → Except CString CZNC) : Prop where
  frame : ∀ {z r}, f z = .ok r → r = { z with vpListeners := r.vpListeners }
  same : ∀ {z z' r r'}, f z = .ok r → f z' = .ok r' → z.vpListeners = z'.vpListeners → r.vpListeners = r'.vpListeners
  cert : ∀ {z r} (z' : CZNC), f z = .ok r → z.vpListeners = z'.vpListeners →
    z.strings .sslCertFile = z'.strings .sslCertFile → ∃ r', f z' = .ok r'

namespace Opens

variable {f g : CZNC → Except CString CZNC}

theorem bind (hf : Opens f) (hg : Opens g) : Opens fun z => (f z).bind g where
  frame := by
    intro z r h
    obtain ⟨t, ht, hr⟩ := Assignments.bind_ok h
    rw [hg.frame hr, hf.frame ht]
  same := by
    intro z z' r r' h h' hls
    obtain ⟨t, ht, hr⟩ := Assignments.bind_ok h
    obtain ⟨t', ht', hr'⟩ := Assignments.bind_ok h'
    exact hg.same hr hr' (hf.same ht ht' hls)
  cert := by
    intro z r z' h hls hcert
    obtain ⟨t, ht, hr⟩ := Assignments.bind_ok h
    obtain ⟨t', ht'⟩ := hf.cert z' ht hls hcert
    have hcert' : t.strings .sslCertFile = t'.strings .sslCertFile := by
      rw [hf.frame ht, hf.frame ht']
      exact hcert
    rw [ht']
    exact hg.cert t' hr (hf.same ht ht' hls) hcert'

theorem pure : Opens .ok where
  frame := by
    intro z r h
    obtain rfl := Except.ok.inj h
    rfl
  same := by
    intro z z' r r' h h' hls
    obtain rfl := Except.ok.inj h
    obtain rfl := Except.ok.inj h'
    exact hls
  cert z' _ _ _ := ⟨z', rfl⟩

theorem foldlM {ι : Type} {f : CZNC → ι → Except CString CZNC} (hf : ∀ i, Opens fun z => f z i) (l : List ι) :
    Opens fun z => l.foldlM f z := by
  induction l with
  | nil => exact pure
  | cons i l ih => exact (hf i).bind ih

theorem error {sError : CString} : Opens fun _ => .error sError where
  frame h := by cases h
  same h := by cases h
  cert _ h := by cases h

theorem guard {β : Type} (x : Except CString β) {f : β → CZNC → Except CString CZNC} (hf : ∀ b, Opens (f b)) :
    Opens fun z => x.bind fun b => f b z := by
  cases x with
  | error sError => exact error
  | ok b => exact hf b

end Opens

theorem opens_finish (pListener : CListener) : Opens fun z => z.finishAddingListener env pListener where
  frame := by
    intro z r h
    rw [CZNC.finishAddingListener] at h
    split at h
    · cases h
    · obtain rfl := Except.ok.inj h
      rfl
  same := by
    intro z z' r r' h h' hls
    rw [CZNC.finishAddingListener] at h h'
    split at h
    · cases h
    · split at h'
      · cases h'
      · obtain rfl := Except.ok.inj h
        obtain rfl := Except.ok.inj h'
        rw [hls]
  cert := by
    intro z r z' h hls _
    rw [CZNC.finishAddingListener, hls] at h
    rw [CZNC.finishAddingListener]
    split at h
    · cases h
    · exact ⟨_, rfl⟩

theorem opens_check (bSSL : Bool) {f : CZNC → Except CString CZNC} (hf : Opens f) :
    Opens fun z => (z.checkSslAndPemFile env bSSL).bind fun _ => f z where
  frame := by
    intro z r h
    cases hcheck : z.checkSslAndPemFile env bSSL with
    | error sError =>
      rw [hcheck] at h
      cases h
    | ok u =>
      rw [hcheck] at h
      exact hf.frame h
  same := by
    intro z z' r r' h h' hls
    cases hcheck : z.checkSslAndPemFile env bSSL with
    | error sError =>
      rw [hcheck] at h
      cases h
    | ok u =>
      cases hcheck' : z'.checkSslAndPemFile env bSSL with
      | error sError =>
        rw [hcheck'] at h'
        cases h'
      | ok u' =>
        rw [hcheck] at h
        rw [hcheck'] at h'
        exact hf.same h h' hls
  cert := by
    intro z r z' h hls hcert
    have hsame : z'.checkSslAndPemFile env bSSL = z.checkSslAndPemFile env bSSL := by
      rw [CZNC.checkSslAndPemFile, CZNC.checkSslAndPemFile, CZNC.getPemLocation, CZNC.getPemLocation, hcert]
    rw [hsame]
    cases hcheck : z.checkSslAndPemFile env bSSL with
    | error sError =>
      rw [hcheck] at h
      cases h
    | ok u =>
      rw [hcheck] at h
      exact hf.cert z' h hls hcert

theorem opens_tcp (uPort : UInt16) (sBindHost sURIPrefix : CString) (bSSL : Bool) (eAddr : EAddrType)
    (eAccept : EAcceptType) : Opens fun z => z.addTCPListener env uPort sBindHost sURIPrefix bSSL eAddr eAccept := by
  simp only [CZNC.addTCPListener]
  split
  · exact Opens.error
  · refine opens_check env bSSL ?_
    split
    · exact Opens.error
    · exact opens_finish env _

theorem opens_parsed (parsed : Parsed) : Opens fun z => z.addParsed env parsed := by
  cases parsed with
  | tcp uPort sBindHost sURIPrefix bSSL eAddr eAccept => exact opens_tcp env _ _ _ _ _ _
  | unix sPath sURIPrefix bSSL eAccept sGroup sMode => exact opens_check env bSSL (opens_finish env _)

theorem opens_block (pSubConf : CConfig) : Opens fun z => z.addListener env pSubConf := by
  refine Opens.guard (parseListener env pSubConf) fun parsed => (opens_parsed env parsed.1).bind ?_
  split
  · exact Opens.pure
  · exact Opens.error

/-- all lines and blocks, from no listener on -/
def openAll (env : Env) (config : CConfig) (z : CZNC) : Except CString CZNC :=
  ((CZNC.listenerLines config).foldlM (CZNC.addListenerLine env) z).bind fun z =>
    (config.findSubConfig (lit "listener")).1.foldlM (fun z subIt => CZNC.addListener env z subIt.2) z

theorem opens_all (config : CConfig) : Opens (openAll env config) :=
  (Opens.foldlM (fun _ => opens_tcp env _ _ _ _ _ _) _).bind
    (Opens.foldlM (fun (subIt : CString × CConfig) => opens_block env subIt.2) _)

theorem loadListeners_eq (config : CConfig) (z : CZNC) :
    z.loadListeners env config = (openAll env config { z with vpListeners := [] }).bind fun z =>
      if z.vpListeners = [] then .error (lit "You must supply at least one Listener in your config.") else .ok z := by
  rw [CZNC.loadListeners, openAll]
  simp only [bind, Except.bind, pure, Except.pure]
  cases (CZNC.listenerLines config).foldlM (CZNC.addListenerLine env) { z with vpListeners := [] } with
  | error sError => rfl
  | ok t => rfl

end ZNC.Global
