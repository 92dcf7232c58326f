/-
The settings of a user in the configuration: `ToConfig` and `ParseConfig` of `src/User.cpp`.

`ToConfig` writes the value of a getter under each key, and `AddKeyValuePair` leaves out the empty ones. `ParseConfig` takes
the keys one after the other from the config, the old names of some of them too, and calls the setter of each that it finds;
`LoadUsers` wants nothing to be left.

Model: a setter of `ParseConfig` and a getter of `ToConfig` are known by what they set and get, so that the two lists of keys
are tables that can be compared. The networks and the modules of the user are not there, nor are the keys of their own and the
old ones that make or load them.

Results:
- `findStringEntry_spec`, `findStringVector_spec`: what is taken from a config and what is left;
- `Parsing.keys_eq`: all keys of `ParseConfig`, one after the other.
-/
import ZNC.LoginNames
import ZNC.NetworkClone
import ZNC.ServerLine

namespace ZNC

open CString Function

namespace CString

def toBool (s : CString) : Bool :=
  let sTrimmed := Config.trim s
  (sTrimmed.trimLeft (lit "0")).trimRight_n (lit "0") ≠ [] && !sTrimmed.equals (lit "false") &&
    !sTrimmed.equals (lit "off") && !sTrimmed.equals (lit "no") && !sTrimmed.equals (lit "n")

end CString

/-! ## What is taken from a config -/

namespace Config

/-- the blocks of a tag, and the others -/
def SubConfigs.split (sTag : CString) : SubConfigs → List (CString × CConfig) × SubConfigs
  | .nil => ([], .nil)
  | .block sTag' sName entries subs rest =>
    if sTag' = sTag then ((sName, ⟨entries, subs⟩) :: (rest.split sTag).1, (rest.split sTag).2)
    else ((rest.split sTag).1, .block sTag' sName entries subs (rest.split sTag).2)

namespace CConfig

/-- `FindStringEntry(sName, sRes)`: what is found, and the config without it -/
def findStringEntry (c : CConfig) (sName : CString) : Option CString × CConfig :=
  match c.configEntries.find sName with
  | none | some [] => (none, c)
  | some [sRes] => (some sRes, { c with configEntries := c.configEntries.erase sName })
  | some (sRes :: it) => (some sRes, { c with configEntries := c.configEntries.insert sName it })

def findStringVector (c : CConfig) (sName : CString) : VCString × CConfig :=
  match c.configEntries.find sName with
  | none => ([], c)
  | some vsList => (vsList, { c with configEntries := c.configEntries.erase sName })

def findSubConfig (c : CConfig) (sTag : CString) : List (CString × CConfig) × CConfig :=
  ((c.subConfigs.split sTag).1, { c with subConfigs := (c.subConfigs.split sTag).2 })

def isEmpty (c : CConfig) : Bool := c.configEntries.isEmpty && c.subConfigs = .nil

end CConfig

end Config

namespace UserConfig

open Config
open NetworkClone (Env addTable look Full uintText boolText nonempty valuesOf)

/-! ## Printed values -/

theorem toUInt_uintText (u : UInt32) : CString.toUInt (uintText u.toNat) = u := by
  have hu := u.toNat_lt
  apply UInt32.toNat_inj.1
  calc (CString.toUInt (uintText u.toNat)).toNat = (UInt64.ofNat u.toNat).toUInt32.toNat := by
        rw [CString.toUInt, strtoul_uintText (by omega)]
    _ = u.toNat % 2 ^ 64 % 2 ^ 32 := by rw [UInt64.toNat_toUInt32, UInt64.toNat_ofNat']
    _ = u.toNat := by omega

theorem toBool_boolText (b : Bool) : CString.toBool (boolText b) = b := by
  cases b <;> decide

/-! ## Users -/

inductive StringSetting where
  | nick
  | altNick
  | ident
  | realName
  | bindHost
  | dccBindHost
  | quitMsg
  | statusPrefix
  | skinName
  | defaultChanModes
  | timestampFormat
  | timezone
  | clientEncoding
  | language
deriving DecidableEq

inductive UIntSetting where
  | chanBufferSize
  | queryBufferSize
  | joinTries
  | maxNetworks
  | maxQueryBuffers
  | maxJoins
  | noTrafficTimeout
deriving DecidableEq

inductive BoolSetting where
  | autoClearChanBuffer
  | autoClearQueryBuffer
  | multiClients
  | denyLoadMod
  | admin
  | denySetBindHost
  | denySetIdent
  | denySetNetwork
  | denySetRealName
  | denySetQuitMsg
  | denySetCTCPReplies
  | timestampAppend
  | timestampPrepend
  | authOnlyViaModule
deriving DecidableEq

inductive EHashType where
  | HASH_NONE
  | HASH_MD5
  | HASH_SHA256
  | HASH_ARGON2ID
deriving DecidableEq

structure CUser where
  sUsername : CString
  strings : StringSetting → CString
  uints : UIntSetting → UInt32
  bools : BoolSetting → Bool
  sPass : CString
  eHashType : EHashType
  sPassSalt : CString
  ssAllowedHosts : SCString
  mssCTCPReplies : MCString

/-- `CZNC`, as far as the settings of users depend on it -/
structure CZNC extends Env where
  sStatusPrefix : CString
  uMaxBufferSize : UInt32

def makeCleanUsername (sUsername : CString) : CString := (sUsername.token 0 false (ch '@') false).remove_n (ch '.')

namespace CUser

/-- `CUser(sUsername)` -/
def new (sUsername : CString) : CUser where
  sUsername := sUsername
  strings := fun setting =>
    match setting with
    | .nick | .ident => makeCleanUsername sUsername
    | .statusPrefix => lit "*"
    | .timestampFormat => lit "[%H:%M:%S]"
    | _ => []
  uints := fun setting =>
    match setting with
    | .chanBufferSize | .queryBufferSize | .maxQueryBuffers => 50
    | .joinTries => 10
    | .maxNetworks => 1
    | .maxJoins => 0
    | .noTrafficTimeout => 180
  bools := fun setting =>
    match setting with
    | .autoClearChanBuffer | .autoClearQueryBuffer | .multiClients | .timestampPrepend => true
    | _ => false
  sPass := []
  eHashType := .HASH_NONE
  sPassSalt := []
  ssAllowedHosts := .empty
  mssCTCPReplies := .empty

/-! ### Setters -/

def putString (user : CUser) (setting : StringSetting) (s : CString) : CUser :=
  { user with strings := update user.strings setting s }

def putUInt (user : CUser) (setting : UIntSetting) (u : UInt32) : CUser :=
  { user with uints := update user.uints setting u }

/-- `SetMultiClients(b)` and the others of a `bool` -/
def setBool (user : CUser) (setting : BoolSetting) (b : Bool) : CUser :=
  { user with bools := update user.bools setting b }

@[simp] theorem strings_putString (user : CUser) (setting : StringSetting) (s : CString) (other : StringSetting) :
    (user.putString setting s).strings other = if other = setting then s else user.strings other :=
  update_apply _ _ _ _

@[simp] theorem uints_putUInt (user : CUser) (setting : UIntSetting) (u : UInt32) (other : UIntSetting) :
    (user.putUInt setting u).uints other = if other = setting then u else user.uints other :=
  update_apply _ _ _ _

@[simp] theorem bools_setBool (user : CUser) (setting : BoolSetting) (b : Bool) (other : BoolSetting) :
    (user.setBool setting b).bools other = if other = setting then b else user.bools other :=
  update_apply _ _ _ _

def statusPrefixOk (s : CString) : Bool := s ≠ [] && s.length < 6 && !s.contains (lit " ")

def setStatusPrefix (user : CUser) (s : CString) : Bool × CUser :=
  if statusPrefixOk s then (true, user.putString .statusPrefix (if s = [] then lit "*" else s)) else (false, user)

/-- `SetLanguage(s)`: they look like ru-RU -/
def setLanguage (user : CUser) (s : CString) : Bool × CUser :=
  if s.all fun c => isalpha c || c = ch '-' || c = ch '_' then
    (true, user.putString .language (s.map fun c => if c = ch '_' then ch '-' else c))
  else (false, user)

/-- `SetNick(s)` and the others of a string, without their verdict -/
def setString (znc : CZNC) (user : CUser) (setting : StringSetting) (s : CString) : CUser :=
  match setting with
  | .statusPrefix => (user.setStatusPrefix s).2
  | .language => (user.setLanguage s).2
  | .clientEncoding => user.putString .clientEncoding (znc.toEnv.fixupEncoding s)
  | _ => user.putString setting s

/-- `SetChanBufferSize(u, bForce)` and `SetQueryBufferSize(u, bForce)` -/
def setBufferSize (znc : CZNC) (user : CUser) (setting : UIntSetting) (u : UInt32) (bForce : Bool) : Bool × CUser :=
  if !bForce && u > znc.uMaxBufferSize then (false, user) else (true, user.putUInt setting u)

/-- `SetJoinTries(u)` and the others of an `unsigned int`; only the buffer sizes have a limit -/
def setUInt (znc : CZNC) (user : CUser) (setting : UIntSetting) (u : UInt32) (bForce : Bool) : CUser :=
  match setting with
  | .chanBufferSize | .queryBufferSize => (user.setBufferSize znc setting u bForce).2
  | _ => user.putUInt setting u

def setPass (user : CUser) (s : CString) (eHash : EHashType) (sSalt : CString) : CUser :=
  match eHash with
  -- the salt is a part of the hash in argon
  | .HASH_NONE | .HASH_ARGON2ID => { user with sPass := s, eHashType := eHash, sPassSalt := [] }
  | .HASH_MD5 | .HASH_SHA256 => { user with sPass := s, eHashType := eHash, sPassSalt := sSalt }

def addAllowedHost (user : CUser) (sHostMask : CString) : Bool × CUser :=
  if sHostMask = [] ∨ sHostMask ∈ user.ssAllowedHosts then (false, user)
  else (true, { user with ssAllowedHosts := user.ssAllowedHosts.insert sHostMask })

def remAllowedHost (user : CUser) (sHostMask : CString) : CUser :=
  { user with ssAllowedHosts := user.ssAllowedHosts.erase sHostMask }

def clearAllowedHosts (user : CUser) : CUser := { user with ssAllowedHosts := .empty }

def addCTCPReply (user : CUser) (sCTCP sReply : CString) : Bool × CUser :=
  if 0x20 ∈ sCTCP then (false, user)
  else if sCTCP = [] then (false, user)
  else (true, { user with mssCTCPReplies := user.mssCTCPReplies.insert sCTCP.asUpper sReply })

def delCTCPReply (user : CUser) (sCTCP : CString) : CUser :=
  { user with mssCTCPReplies := user.mssCTCPReplies.erase sCTCP.asUpper }

/-! ### Getters -/

/-- `GetNick(bAllowDefault)` and the others of a string; most of them have no such argument -/
def getString (user : CUser) (bAllowDefault : Bool) (setting : StringSetting) : CString :=
  let s := user.strings setting
  match setting with
  | .nick | .altNick | .ident => if bAllowDefault && s = [] then makeCleanUsername user.sUsername else s
  | .realName => if trim s ≠ [] then s else lit "ZNC - https://znc.in"
  | .quitMsg => if trim s ≠ [] then s else lit "%znc%"
  | _ => s

end CUser

/-- the values of all the getters -/
structure Getters where
  strings : StringSetting → CString
  uints : UIntSetting → UInt32
  bools : BoolSetting → Bool
  sPass : CString
  eHashType : EHashType
  sPassSalt : CString
  ssAllowedHosts : SCString
  mssCTCPReplies : MCString

def CUser.getters (user : CUser) (bAllowDefault : Bool) : Getters where
  strings := user.getString bAllowDefault
  uints := user.uints
  bools := user.bools
  sPass := user.sPass
  eHashType := user.eHashType
  sPassSalt := user.sPassSalt
  ssAllowedHosts := user.ssAllowedHosts
  mssCTCPReplies := user.mssCTCPReplies

/-! ## Writing -/

/-- what a key of the config is about -/
inductive Entry where
  | string (setting : StringSetting)
  | uint (setting : UIntSetting)
  | bool (setting : BoolSetting)
  | allowedHost
  | ctcpReply
deriving DecidableEq

/-- the keys of `ToConfig` in order -/
def entries : List (CString × Entry) :=
  [(lit "Nick", .string .nick),
    (lit "AltNick", .string .altNick),
    (lit "Ident", .string .ident),
    (lit "RealName", .string .realName),
    (lit "BindHost", .string .bindHost),
    (lit "DCCBindHost", .string .dccBindHost),
    (lit "QuitMsg", .string .quitMsg),
    (lit "StatusPrefix", .string .statusPrefix),
    (lit "Skin", .string .skinName),
    (lit "ChanModes", .string .defaultChanModes),
    (lit "ChanBufferSize", .uint .chanBufferSize),
    (lit "QueryBufferSize", .uint .queryBufferSize),
    (lit "AutoClearChanBuffer", .bool .autoClearChanBuffer),
    (lit "AutoClearQueryBuffer", .bool .autoClearQueryBuffer),
    (lit "MultiClients", .bool .multiClients),
    (lit "DenyLoadMod", .bool .denyLoadMod),
    (lit "Admin", .bool .admin),
    (lit "DenySetBindHost", .bool .denySetBindHost),
    (lit "DenySetIdent", .bool .denySetIdent),
    (lit "DenySetNetwork", .bool .denySetNetwork),
    (lit "DenySetRealName", .bool .denySetRealName),
    (lit "DenySetQuitMsg", .bool .denySetQuitMsg),
    (lit "DenySetCTCPReplies", .bool .denySetCTCPReplies),
    (lit "TimestampFormat", .string .timestampFormat),
    (lit "AppendTimestamp", .bool .timestampAppend),
    (lit "PrependTimestamp", .bool .timestampPrepend),
    (lit "AuthOnlyViaModule", .bool .authOnlyViaModule),
    (lit "Timezone", .string .timezone),
    (lit "JoinTries", .uint .joinTries),
    (lit "MaxNetworks", .uint .maxNetworks),
    (lit "MaxQueryBuffers", .uint .maxQueryBuffers),
    (lit "MaxJoins", .uint .maxJoins),
    (lit "ClientEncoding", .string .clientEncoding),
    (lit "Language", .string .language),
    (lit "NoTrafficTimeout", .uint .noTrafficTimeout),
    (lit "Allow", .allowedHost),
    (lit "CTCPReply", .ctcpReply)]

namespace CUser

/-- what `ToConfig` writes for each key -/
def values (znc : CZNC) (user : CUser) : Entry → VCString
  | .string .statusPrefix =>
    if znc.sStatusPrefix ≠ user.strings .statusPrefix then [user.strings .statusPrefix] else []
  | .string setting => [user.getString true setting]
  | .uint setting => [uintText (user.uints setting).toNat]
  | .bool setting => [boolText (user.bools setting)]
  | .allowedHost => user.ssAllowedHosts.toList
  | .ctcpReply => user.mssCTCPReplies.entries.map fun itb => itb.1.asUpper ++ lit " " ++ itb.2

def hashName : EHashType → CString
  | .HASH_NONE => lit "Plain"
  | .HASH_MD5 => lit "MD5"
  | .HASH_SHA256 => lit "SHA256"
  | .HASH_ARGON2ID => lit "Argon2id"

def passTable (user : CUser) : List (CString × VCString) :=
  [(lit "Salt", [user.sPassSalt]), (lit "Method", [hashName user.eHashType]), (lit "Hash", [user.sPass])]

def passConfig (user : CUser) : CConfig := addTable user.passTable .empty

def toConfig (znc : CZNC) (user : CUser) : CConfig :=
  addTable (entries.map fun e => (e.1, user.values znc e.2))
    (CConfig.empty.addSubConfig (lit "Pass") (lit "password") user.passConfig).2

end CUser

/-! ## Reading -/

/-- what `ParseConfig` does with a key -/
inductive Reader where
  | entry (e : Entry)
  /-- `SetKeepBuffer(b)` -/
  | keepBuffer
  /-- the old key of the time stamps -/
  | timestamp
  /-- at most a warning is printed -/
  | ignored
deriving DecidableEq

def StringOptions : List (CString × Reader) :=
  [(lit "nick", .entry (.string .nick)),
    (lit "quitmsg", .entry (.string .quitMsg)),
    (lit "altnick", .entry (.string .altNick)),
    (lit "ident", .entry (.string .ident)),
    (lit "realname", .entry (.string .realName)),
    (lit "chanmodes", .entry (.string .defaultChanModes)),
    (lit "bindhost", .entry (.string .bindHost)),
    (lit "vhost", .entry (.string .bindHost)),
    (lit "dccbindhost", .entry (.string .dccBindHost)),
    (lit "dccvhost", .entry (.string .dccBindHost)),
    (lit "timestampformat", .entry (.string .timestampFormat)),
    (lit "skin", .entry (.string .skinName)),
    (lit "clientencoding", .entry (.string .clientEncoding))]

def UIntOptions : List (CString × Reader) :=
  [(lit "jointries", .entry (.uint .joinTries)),
    (lit "maxnetworks", .entry (.uint .maxNetworks)),
    (lit "maxquerybuffers", .entry (.uint .maxQueryBuffers)),
    (lit "maxjoins", .entry (.uint .maxJoins)),
    (lit "notraffictimeout", .entry (.uint .noTrafficTimeout))]

def BoolOptions : List (CString × Reader) :=
  [(lit "keepbuffer", .keepBuffer),
    (lit "autoclearchanbuffer", .entry (.bool .autoClearChanBuffer)),
    (lit "autoclearquerybuffer", .entry (.bool .autoClearQueryBuffer)),
    (lit "multiclients", .entry (.bool .multiClients)),
    (lit "denyloadmod", .entry (.bool .denyLoadMod)),
    (lit "admin", .entry (.bool .admin)),
    (lit "denysetbindhost", .entry (.bool .denySetBindHost)),
    (lit "denysetvhost", .entry (.bool .denySetBindHost)),
    (lit "denysetident", .entry (.bool .denySetIdent)),
    (lit "denysetnetwork", .entry (.bool .denySetNetwork)),
    (lit "denysetrealname", .entry (.bool .denySetRealName)),
    (lit "denysetquitmsg", .entry (.bool .denySetQuitMsg)),
    (lit "denysetctcpreplies", .entry (.bool .denySetCTCPReplies)),
    (lit "appendtimestamp", .entry (.bool .timestampAppend)),
    (lit "prependtimestamp", .entry (.bool .timestampPrepend)),
    (lit "authonlyviamodule", .entry (.bool .authOnlyViaModule))]

/-- the keys that `ParseConfig` looks for in order, up to the password -/
def readers : List (CString × Reader) :=
  StringOptions ++ UIntOptions ++ BoolOptions ++
    [(lit "allow", .entry .allowedHost),
      (lit "ctcpreply", .entry .ctcpReply),
      (lit "buffer", .entry (.uint .chanBufferSize)),
      (lit "chanbuffersize", .entry (.uint .chanBufferSize)),
      (lit "querybuffersize", .entry (.uint .queryBufferSize)),
      (lit "awaysuffix", .ignored),
      (lit "autocycle", .ignored),
      (lit "keepnick", .ignored),
      (lit "statusprefix", .entry (.string .statusPrefix)),
      (lit "timezone", .entry (.string .timezone)),
      (lit "timezoneoffset", .ignored),
      (lit "timestamp", .timestamp),
      (lit "language", .entry (.string .language))]

/-- the user, and what is left of its config -/
structure Parsing where
  user : CUser
  config : CConfig

def invalidStatusPrefix (s : CString) : CString :=
  lit "Invalid StatusPrefix [" ++ s ++ lit "] Must be 1-5 chars, no spaces."

namespace CUser

/-- the setter that `ParseConfig` calls with a value -/
def read (znc : CZNC) (user : CUser) (reader : Reader) (sValue : CString) : Except CString CUser :=
  match reader with
  | .entry (.string .statusPrefix) =>
    if (user.setStatusPrefix sValue).1 then .ok (user.setStatusPrefix sValue).2 else .error (invalidStatusPrefix sValue)
  | .entry (.string setting) => .ok (user.setString znc setting sValue)
  | .entry (.uint setting) => .ok (user.setUInt znc setting sValue.toUInt true)
  | .entry (.bool setting) => .ok (user.setBool setting sValue.toBool)
  | .entry .allowedHost => .ok (user.addAllowedHost sValue).2
  | .entry .ctcpReply => .ok (user.addCTCPReply (sValue.token 0 false 0x20 false) (sValue.token 1 true 0x20 false)).2
  | .keepBuffer => .ok (user.setBool .autoClearChanBuffer !sValue.toBool)
  | .timestamp =>
    if (trim sValue).equals (lit "true") then .ok user
    else if (trim sValue).equals (lit "append") then
      .ok ((user.setBool .timestampAppend true).setBool .timestampPrepend false)
    else if (trim sValue).equals (lit "prepend") then
      .ok ((user.setBool .timestampAppend false).setBool .timestampPrepend true)
    else if (trim sValue).equals (lit "false") then
      .ok ((user.setBool .timestampAppend false).setBool .timestampPrepend false)
    else .ok (user.setString znc .timestampFormat sValue)
  | .ignored => .ok user

/-- `Pass = <plain text>`, `<md5 hash> -`, `plain#<plain text>`, `<hash name>#<hash>` or `<hash name>#<salted hash>#<salt>#` -/
def readPass (user : CUser) (sValue : CString) : CUser :=
  if sValue.endsWith (lit "-") then user.setPass (trim (sValue.trimSuffix_n (lit "-"))) .HASH_MD5 []
  else
    let sMethod := sValue.token 0 false (ch '#') false
    let sPass := sValue.token 1 true (ch '#') false
    let sSalt := sPass.token 1 false (ch '#') false
    if sMethod = lit "md5" then user.setPass (sPass.token 0 false (ch '#') false) .HASH_MD5 sSalt
    else if sMethod = lit "sha256" then user.setPass (sPass.token 0 false (ch '#') false) .HASH_SHA256 sSalt
    else if sMethod = lit "plain" then user.setPass sPass .HASH_NONE []
    else user.setPass sValue .HASH_NONE []

def hashType (sMethod : CString) : Option EHashType :=
  if sMethod = [] || sMethod.equals (lit "plain") then some .HASH_NONE
  else if sMethod.equals (lit "md5") then some .HASH_MD5
  else if sMethod.equals (lit "sha256") then some .HASH_SHA256
  else if sMethod.equals (lit "Argon2id") then some .HASH_ARGON2ID
  else none

def readPassConfig (user : CUser) (config : CConfig) : Except CString CUser :=
  let (sHash, config) := config.findStringEntry (lit "hash")
  let (sMethod, config) := config.findStringEntry (lit "method")
  let (sSalt, config) := config.findStringEntry (lit "salt")
  match hashType (sMethod.getD []) with
  | none => .error (lit "Invalid hash method")
  | some method =>
    if config.isEmpty then .ok (user.setPass (sHash.getD []) method (sSalt.getD []))
    else .error (lit "Unhandled lines in config!")

end CUser

namespace Parsing

/-- one key: all of its values for `Allow` and `CTCPReply`, and the first one for the others -/
def key (znc : CZNC) (st : Parsing) (sName : CString) (reader : Reader) : Except CString Parsing :=
  let (vsList, config) :=
    if reader = .entry .allowedHost ∨ reader = .entry .ctcpReply then st.config.findStringVector sName
    else ((st.config.findStringEntry sName).1.toList, (st.config.findStringEntry sName).2)
  (vsList.foldlM (fun (user : CUser) sValue => user.read znc reader sValue) st.user).map fun user => ⟨user, config⟩

def pass (st : Parsing) : Except CString Parsing :=
  let (sValue, config) := st.config.findStringEntry (lit "pass")
  let (subConf, config) := config.findSubConfig (lit "pass")
  let sValue := sValue.getD []
  let user := st.user.readPass sValue
  if sValue.trimSuffix_n (lit "-") ≠ [] ∧ subConf ≠ [] then .error (lit "Password defined more than once")
  else match subConf with
    | [] => .ok ⟨user, config⟩
    | [subIt] => (user.readPassConfig subIt.2).map fun user => ⟨user, config⟩
    | subIt :: _ => (user.readPassConfig subIt.2).bind fun _ => .error (lit "Password defined more than once")

end Parsing

def CUser.parseConfig (znc : CZNC) (user : CUser) (pConfig : CConfig) : Except CString Parsing :=
  (readers.foldlM (fun (st : Parsing) reader =>
    st.key znc reader.1 reader.2) (⟨user, pConfig⟩ : Parsing)).bind Parsing.pass

namespace CZNC

def newUser (znc : CZNC) (sUsername : CString) : Except CString CUser :=
  let user := CUser.new sUsername
  if znc.sStatusPrefix = [] then .ok user
  else if (user.setStatusPrefix znc.sStatusPrefix).1 then .ok (user.setStatusPrefix znc.sStatusPrefix).2
  else .error (invalidStatusPrefix znc.sStatusPrefix)

/-- one user of `LoadUsers`, up to `AddUser` -/
def loadUser (znc : CZNC) (sUsername : CString) (pSubConf : CConfig) : Except CString CUser := do
  let user ← znc.newUser sUsername
  let st ← user.parseConfig znc pSubConf
  if st.config.isEmpty then return st.user
  else .error (lit "Unhandled lines in config for User [" ++ sUsername ++ lit "]!")

def loadUsers (znc : CZNC) (config : CConfig) : Except CString (List CUser) :=
  (config.findSubConfig (lit "user")).1.mapM fun subIt => znc.loadUser subIt.1 subIt.2

/-- the file that is written for a user -/
def writeConfig (znc : CZNC) (user : CUser) : CString :=
  (CConfig.empty.addSubConfig (lit "User") user.sUsername (user.toConfig znc)).2.write 0

/-- the users after a restart -/
def restart (znc : CZNC) (user : CUser) : Except CString (List CUser) :=
  (parse (znc.writeConfig user)).bind znc.loadUsers

end CZNC

/-! ## What is found -/

/-- a config without one of its keys -/
structure Without (c c' : CConfig) (sName : CString) : Prop where
  full : Full c'
  subConfigs : c'.subConfigs = c.subConfigs
  look : ∀ k, look c' k = if k = sName then [] else look c k

variable {c : CConfig}

theorem without_erase (h : Full c) (sName : CString) :
    Without c { c with configEntries := c.configEntries.erase sName } sName := by
  refine ⟨fun k => ?_, rfl, fun k => ?_⟩
  · dsimp only
    rw [OrdMap.find_erase]
    split_ifs
    · simp
    · exact h k
  · rw [look, OrdMap.find_erase]
    split_ifs <;> rfl

theorem without_self (h : Full c) {sName : CString} (hnone : look c sName = []) : Without c c sName := by
  refine ⟨h, rfl, fun k => ?_⟩
  split_ifs with hk
  · rw [hk, hnone]
  · rfl

/-- a key that has one value at most -/
theorem findStringEntry_spec (h : Full c) {sName : CString} (hone : (look c sName).length ≤ 1) :
    (c.findStringEntry sName).1.toList = look c sName ∧ Without c (c.findStringEntry sName).2 sName := by
  rw [CConfig.findStringEntry]
  cases hfind : c.configEntries.find sName with
  | none =>
    have hnone : look c sName = [] := by rw [look, hfind]; rfl
    exact ⟨hnone.symm, without_self h hnone⟩
  | some vsList =>
    have hlook : look c sName = vsList := by rw [look, hfind]; rfl
    rw [hlook] at hone ⊢
    cases vsList with
    | nil => exact absurd hfind (h sName)
    | cons sRes rest =>
      obtain rfl : rest = [] := List.eq_nil_of_length_eq_zero (by simpa using hone)
      exact ⟨rfl, without_erase h sName⟩

theorem findStringVector_spec (h : Full c) (sName : CString) :
    (c.findStringVector sName).1 = look c sName ∧ Without c (c.findStringVector sName).2 sName := by
  rw [CConfig.findStringVector]
  cases hfind : c.configEntries.find sName with
  | none =>
    have hnone : look c sName = [] := by rw [look, hfind]; rfl
    exact ⟨hnone.symm, without_self h hnone⟩
  | some vsList =>
    have hlook : look c sName = vsList := by rw [look, hfind]; rfl
    exact ⟨hlook.symm, without_erase h sName⟩

theorem isEmpty_of_look (h : Full c) (hlook : ∀ k, look c k = []) (hsubs : c.subConfigs = .nil) :
    c.isEmpty = true := by
  have hentries : c.configEntries = .empty := by
    refine OrdMap.ext_find fun k => ?_
    cases hfind : c.configEntries.find k with
    | none => rw [OrdMap.find_empty]
    | some vsList =>
      have hvalues := hlook k
      rw [look, hfind, Option.getD_some] at hvalues
      exact absurd (hfind.trans (congrArg some hvalues)) (h k)
  rw [CConfig.isEmpty, hentries, hsubs]
  rfl

theorem Parsing.key_eq (znc : CZNC) {st : Parsing} (h : Full st.config) (sName : CString) (reader : Reader)
    (hone : reader ≠ .entry .allowedHost → reader ≠ .entry .ctcpReply → (look st.config sName).length ≤ 1) :
    ∃ config, Without st.config config sName ∧
      st.key znc sName reader =
        ((look st.config sName).foldlM (fun (user : CUser) sValue => user.read znc reader sValue) st.user).map
          fun user => ⟨user, config⟩ := by
  rw [Parsing.key]
  by_cases hall : reader = .entry .allowedHost ∨ reader = .entry .ctcpReply
  · obtain ⟨hvalues, hwithout⟩ := findStringVector_spec h sName
    rw [if_pos hall, ← hvalues]
    exact ⟨_, hwithout, rfl⟩
  · obtain ⟨hno, hno'⟩ := not_or.1 hall
    obtain ⟨hvalues, hwithout⟩ := findStringEntry_spec h (hone hno hno')
    rw [if_neg hall, ← hvalues]
    exact ⟨_, hwithout, rfl⟩

/-- **All keys:** their values are those in the config at the start, and none of them is left. -/
theorem Parsing.keys_eq (znc : CZNC) (src : CString → VCString) {rs : List (CString × Reader)}
    (hnodup : (rs.map Prod.fst).Nodup) {st : Parsing} (h : Full st.config)
    (hsrc : ∀ r ∈ rs, look st.config r.1 = src r.1)
    (hone : ∀ r ∈ rs, r.2 ≠ .entry .allowedHost → r.2 ≠ .entry .ctcpReply → (src r.1).length ≤ 1) :
    ∃ config, Full config ∧ config.subConfigs = st.config.subConfigs ∧
      (∀ k, look config k = if k ∈ rs.map Prod.fst then [] else look st.config k) ∧
      rs.foldlM (fun (st : Parsing) reader => st.key znc reader.1 reader.2) st =
        (rs.foldlM (fun (user : CUser) reader =>
          (src reader.1).foldlM (fun (user : CUser) sValue => user.read znc reader.2 sValue) user) st.user).map
            fun user => ⟨user, config⟩ := by
  induction rs generalizing st with
  | nil => exact ⟨st.config, h, rfl, fun k => by simp, rfl⟩
  | cons r rs ih =>
    obtain ⟨hfirst, hnodup⟩ := List.nodup_cons.1 hnodup
    obtain ⟨hr, hrs⟩ := List.forall_mem_cons.1 hone
    obtain ⟨hsrcFirst, hsrcRest⟩ := List.forall_mem_cons.1 hsrc
    obtain ⟨config, hwithout, hkey⟩ := Parsing.key_eq znc h r.1 r.2 (by rw [hsrcFirst]; exact hr)
    -- the other keys have the values that they had before
    have hsame : ∀ r' ∈ rs, look config r'.1 = src r'.1 := by
      intro r' hr'
      rw [hwithout.look, if_neg fun heq => hfirst (List.mem_map.2 ⟨r', hr', heq⟩)]
      exact hsrcRest r' hr'
    have hrest (user : CUser) := @ih hnodup ⟨user, config⟩ hwithout.full hsame hrs
    obtain ⟨config', hfull, hsubs, hlook, -⟩ := hrest st.user
    have hall (user : CUser) : rs.foldlM (fun (st : Parsing) reader => st.key znc reader.1 reader.2) ⟨user, config⟩ =
        (rs.foldlM (fun (user : CUser) reader =>
          (src reader.1).foldlM (fun (user : CUser) sValue => user.read znc reader.2 sValue) user) user).map
            fun user => ⟨user, config'⟩ := by
      obtain ⟨config'', hfull', hsubs', hlook', heq⟩ := hrest user
      have hconfig : config'' = config' :=
        NetworkClone.ext_look hfull' hfull (fun k => by rw [hlook', hlook]) (hsubs'.trans hsubs.symm)
      rw [heq, hconfig]
    refine ⟨config', hfull, hsubs.trans hwithout.subConfigs, fun k => ?_, ?_⟩
    · rw [hlook, hwithout.look]
      simp only [List.map_cons, List.mem_cons]
      by_cases hmem : k ∈ rs.map Prod.fst
      · rw [if_pos hmem, if_pos (.inr hmem)]
      · simp only [hmem, or_false, if_false]
    · rw [List.foldlM_cons, List.foldlM_cons, hkey, hsrcFirst]
      cases (src r.1).foldlM (fun (user : CUser) sValue => user.read znc r.2 sValue) st.user with
      | error sError => rfl
      | ok user => exact hall user

end UserConfig

end ZNC
