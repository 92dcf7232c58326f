/-
The pages of the web interface: `CWebSock::OnPageRequestInternal` of `src/WebModules.cpp`, and the pages of `modules/webadmin.cpp`
and `modules/certauth.cpp`.

A request is answered by the socket itself or handed to the module that its URI names. The token is compared for POST requests
only. A page tells a form that was filled in by the POST parameter `submitted`; whom a page is about it reads from POST or GET
parameters.

Model: a web session knows its user by name, and a network and a channel are known by where they stand. `Rest` is what no page
looks at. What a filled-in form does, the pages of other modules and the login are in `Elsewhere`; nothing is assumed of them. The
templates and the messages of a session are not there.
-/
import ZNC.CertAuth
import ZNC.GlobalConfig

namespace ZNC.WebPages

open CString
open Global (CListener EAddrType addrType)

/-! ## Requests and sessions -/

/-- a request; the URI has no prefix and no query any more -/
structure CWebSock where
  m_bPost : Bool
  m_bBasicAuth : Bool
  m_sURI : CString
  m_msvsPOSTParams : OrdMap CString VCString
  m_msvsGETParams : OrdMap CString VCString
  sRemoteIP : CString
  /-- only `CheckPost` fills the table -/
  unposted : m_bPost = false → m_msvsPOSTParams = .empty

namespace CWebSock

def getRawParam (sName : CString) (msvsParams : OrdMap CString VCString) : CString :=
  ((msvsParams.find sName).getD []).headD []

def getParam (r : CWebSock) (sName : CString) (bPost : Bool) : CString :=
  CertAuth.getParam (getRawParam sName (if bPost then r.m_msvsPOSTParams else r.m_msvsGETParams))

/-- "check for POST param", and fall back to the GET parameter when no form is being saved -/
def safeGetParam (r : CWebSock) (sName : CString) : CString :=
  if r.getParam sName true = [] ∧ r.m_bPost = false then r.getParam sName false else r.getParam sName true

def safeGetUsernameParam (r : CWebSock) : CString := r.safeGetParam (lit "user")

def safeGetNetworkParam (r : CWebSock) : CString := r.safeGetParam (lit "network")

/-- the form was filled in -/
def submitted (r : CWebSock) : Bool := (r.getParam (lit "submitted") true).toUInt ≠ 0

def getPath (r : CWebSock) : CString := r.m_sURI.token 0 false (ch '?') false

end CWebSock

structure CWebSession where
  sId : CString
  sIP : CString
  /-- the name of `m_pUser` -/
  pUser : Option CString

/-! ## Users, networks, channels -/

/-- what no page looks at: the settings, modules and buffers of a channel, of a network, of a user and of ZNC -/
structure Rest where
  chan : Type
  network : Type
  user : Type
  global : Type

variable {R : Rest}

structure CChan (R : Rest) where
  sName : CString
  rest : R.chan

structure CIRCNetwork (R : Rest) where
  sName : CString
  m_vChans : List (CChan R)
  /-- the names of the loaded modules -/
  vsModules : VCString
  rest : R.network

structure CUser (R : Rest) where
  bAdmin : Bool
  bDenySetNetwork : Bool
  uMaxNetworks : ℕ
  m_vIRCNetworks : List (CIRCNetwork R)
  vsModules : VCString
  rest : R.user

structure CZNC (R : Rest) where
  m_msUsers : OrdMap CString (CUser R)
  m_vpListeners : List CListener
  vsModules : VCString
  certauth : CertAuth.CSSLClientCertMod
  bProtectWebSessions : Bool
  rest : R.global

def CIRCNetwork.delChan (n : CIRCNetwork R) (sName : CString) : CIRCNetwork R :=
  { n with m_vChans := n.m_vChans.eraseP fun c => sName.equals c.sName }

def CIRCNetwork.findChan (n : CIRCNetwork R) (sName : CString) : Option ℕ :=
  n.m_vChans.findIdx? fun c => sName.equals c.sName

namespace CUser

def findNetwork (u : CUser R) (sNetwork : CString) : Option ℕ := u.m_vIRCNetworks.findIdx? fun n => n.sName.equals sNetwork

def hasSpaceForNewNetwork (u : CUser R) : Bool := u.m_vIRCNetworks.length < u.uMaxNetworks

def addNetwork (u : CUser R) (n : CIRCNetwork R) : CUser R × Bool :=
  if (u.findNetwork n.sName).isSome then (u, false) else ({ u with m_vIRCNetworks := u.m_vIRCNetworks ++ [n] }, true)

/-- the life of `EmptyNetwork`: its constructor enters it for the user, and its destructor takes it out -/
def showEmptyNetwork (u : CUser R) (n : CIRCNetwork R) : CUser R :=
  match u.addNetwork n with
  | (u, true) => { u with m_vIRCNetworks := u.m_vIRCNetworks.dropLast }
  | (u, false) => u

def updateNetwork (u : CUser R) (pNetwork : ℕ) (f : CIRCNetwork R → CIRCNetwork R) : CUser R :=
  { u with m_vIRCNetworks := u.m_vIRCNetworks.modify pNetwork f }

end CUser

namespace CZNC

def updateUser (z : CZNC R) (sUser : CString) (f : CUser R → CUser R) : CZNC R :=
  match z.m_msUsers.find sUser with
  | some u => { z with m_msUsers := z.m_msUsers.insert sUser (f u) }
  | none => z

/-- the network that stands at an index of a user -/
def getNetwork (z : CZNC R) (pNetwork : CString × ℕ) : Option (CIRCNetwork R) :=
  (z.m_msUsers.find pNetwork.1).bind fun u => u.m_vIRCNetworks[pNetwork.2]?

/-- `FindListener(uPort, sBindHost, eAddr)` -/
def isTCPListener (uPort : UInt16) (sBindHost : CString) (eAddr : EAddrType) (l : CListener) : Bool :=
  l.address = .tcp eAddr uPort sBindHost

/-- `FindUnixListener(sPath)` -/
def isUnixListener (sPath : CString) (l : CListener) : Bool :=
  match l.address with
  | .tcp .. => false
  | .unix sPath' .. => sPath' = sPath

def delListener (z : CZNC R) (p : CListener → Bool) : CZNC R := { z with m_vpListeners := z.m_vpListeners.eraseP p }

end CZNC

def findModule (vsModules : VCString) (sModule : CString) : Option CString := vsModules.find? fun sName => sModule.equals sName

/-! ## Replies -/

/-- what the socket answers -/
inductive Answer where
  | error (uStatusId : ℕ) (sStatusMsg sMessage : CString)
  | redirect (sURL : CString)
  | template (sPage : CString)
  | errorPage (sMessage : CString)
  | staticFile (sPath : CString)
  | skinFile (sSkinName sFilePath : CString)
  | modFile (sModName sFilePath : CString)
  | notFound
  | deferred
deriving DecidableEq

/-- what `OnWebRequest` comes to: `true` with or without `PrintErrorPage`, after a redirect, or `false` -/
inductive WebReply where
  | acknowledged
  | error (sMessage : CString)
  | redirected (sURL : CString)
  | unacknowledged
deriving DecidableEq

def WebReply.answer (sPage : CString) : WebReply → Answer
  | .acknowledged => .template sPage
  | .error sMessage => .errorPage sMessage
  | .redirected sURL => .redirect sURL
  | .unacknowledged => .error 404 (lit "Not Implemented") (lit "The requested module does not acknowledge web requests")

inductive EModuleType where
  | GlobalModule
  | UserModule
  | NetworkModule
deriving DecidableEq

/-- a form that was filled in, and what it is about -/
inductive Form where
  | settings
  | user (pUser : Option CString)
  | network (sUser : CString) (pNetwork : Option ℕ)
  | chan (sUser : CString) (pNetwork : ℕ) (pChan : Option ℕ)
  | delNetwork (sUser sNetwork : CString)
  | delUser (sUser : CString)
  | addListener

structure Elsewhere (R : Rest) where
  /-- `CString::MD5` -/
  md5 : CString → CString
  /-- the settings of a network that was just constructed -/
  newNetwork : R.network
  /-- `WriteConfig` -/
  writeConfig : CZNC R → Bool
  save : Form → CWebSock → CZNC R → CZNC R × WebReply
  /-- `OnLogin` -/
  onLogin : CString → CString → CZNC R → CZNC R
  /-- the page of another module, with all that is asked of the module before -/
  otherPage : EModuleType → CString → CString → CWebSock → CZNC R → CZNC R × Answer

variable (E : Elsewhere R)

namespace CWebSession

def getUser (s : CWebSession) (z : CZNC R) : Option (CUser R) := s.pUser.bind z.m_msUsers.find

def isLoggedIn (s : CWebSession) (z : CZNC R) : Bool := (s.getUser z).isSome

def isAdmin (s : CWebSession) (z : CZNC R) : Bool := (s.getUser z).any CUser.bAdmin

/-- `GetUser()->DenySetNetwork()` -/
def denySetNetwork (s : CWebSession) (z : CZNC R) : Bool := (s.getUser z).any CUser.bDenySetNetwork

def getCSRFCheck (s : CWebSession) : CString := E.md5 s.sId

end CWebSession

def validateCSRFCheck (s : CWebSession) (r : CWebSock) (sURI : CString) : Bool :=
  sURI = lit "/login" || r.getParam (lit "_CSRF_Check") true = s.getCSRFCheck E

/-! ## The pages of webadmin -/

namespace Webadmin

variable (z : CZNC R) (s : CWebSession) (r : CWebSock)

/-- the sub pages, and which of them are `F_ADMIN` -/
def vSubPages : List (CString × Bool) :=
  [(lit "settings", true), (lit "edituser", false), (lit "traffic", false), (lit "listusers", true)]

def webPath : CString := lit "/mods/global/webadmin/"

def safeGetUserFromParam : Option CString :=
  if (z.m_msUsers.find r.safeGetUsernameParam).isSome then some r.safeGetUsernameParam else none

def safeGetNetworkFromParam : Option (CString × ℕ) :=
  ((z.m_msUsers.find r.safeGetUsernameParam).bind fun u => u.findNetwork r.safeGetNetworkParam).map
    fun pNetwork => (r.safeGetUsernameParam, pNetwork)

/-- the "Admin||Self Check" for a user -/
def adminOrSelf (pUser : Option CString) : Bool := s.isAdmin z || (s.isLoggedIn z && s.pUser = pUser)

/-- the "Admin||Self Check" for a network, which is that of a user -/
def adminOrOwner (pNetwork : Option (CString × ℕ)) : Bool :=
  s.isAdmin z || (s.isLoggedIn z && pNetwork.any fun pNetwork => s.pUser = some pNetwork.1)

def settingsPage : CZNC R × WebReply := if r.submitted then E.save .settings r z else (z, .acknowledged)

def userPage (pUser : Option CString) : CZNC R × WebReply :=
  if r.submitted then E.save (.user pUser) r z else (z, .acknowledged)

def networkPage (sUser : CString) (pNetwork : Option ℕ) : CZNC R × WebReply :=
  if pNetwork = none ∧ s.isAdmin z = false ∧ (z.m_msUsers.find sUser).any CUser.bDenySetNetwork then
    (z, .error (lit "Permission denied"))
  else if pNetwork = none ∧ s.isAdmin z = false ∧ (z.m_msUsers.find sUser).any CUser.hasSpaceForNewNetwork = false then
    (z, .error (lit "Network number limit reached. Ask an admin to increase the " ++
      lit "limit for you, or delete unneeded networks from Your Settings."))
  else if r.submitted then E.save (.network sUser pNetwork) r z
  else (z.updateUser sUser fun u => u.showEmptyNetwork ⟨[], [], [], E.newNetwork⟩, .acknowledged)

def chanPage (pNetwork : CString × ℕ) (pChan : Option ℕ) : CZNC R × WebReply :=
  if r.submitted then E.save (.chan pNetwork.1 pNetwork.2 pChan) r z else (z, .acknowledged)

def delNetwork (pUser : Option CString) : CZNC R × WebReply :=
  let sNetwork := r.safeGetParam (lit "name")
  match pUser with
  | none => (z, .error (lit "No such user"))
  | some sUser =>
    if sNetwork = [] then (z, .error (lit "That network doesn't exist for this user"))
    -- Show the "Are you sure?" page
    else if r.m_bPost = false then (z, .acknowledged)
    else E.save (.delNetwork sUser sNetwork) r z

def delChan (pNetwork : CString × ℕ) : CZNC R × WebReply :=
  let sChan := r.getParam (lit "name") false
  let sNetwork : CString := (z.getNetwork pNetwork).elim [] CIRCNetwork.sName
  if sChan = [] then (z, .error (lit "That channel doesn't exist for this network"))
  else
    let z := z.updateUser pNetwork.1 fun u => u.updateNetwork pNetwork.2 fun n => n.delChan sChan
    if E.writeConfig z = false then (z, .error (lit "Channel was deleted, but config file was not written"))
    else (z, .redirected (webPath ++ lit "editnetwork?user=" ++ (pNetwork.1.escape_n .EASCII .EURL).getD [] ++
      lit "&network=" ++ (sNetwork.escape_n .EASCII .EURL).getD []))

/-- the address family that a form about a listener names -/
def tcpAddress : Option EAddrType :=
  addrType (r.getParam (lit "ipv4") true).toBool (r.getParam (lit "ipv6") true).toBool

def addListener : CZNC R × WebReply :=
  -- "Choose either IRC or HTTP or both."
  if (r.getParam (lit "irc") true).toBool = false ∧ (r.getParam (lit "web") true).toBool = false then
    settingsPage E z r
  -- "Choose either IPv4 or IPv6 or both."
  else if r.getParam (lit "type") true = lit "TCP" ∧ tcpAddress r = none then settingsPage E z r
  else
    let (z, _) := E.save .addListener r z
    settingsPage E z r

def delListener : CZNC R × WebReply :=
  if r.getParam (lit "type") true = lit "TCP" then
    match tcpAddress r with
    -- "Invalid request."
    | none => settingsPage E z r
    | some eAddr =>
      settingsPage E (z.delListener (CZNC.isTCPListener (r.getParam (lit "port") true).toUShort
        (r.getParam (lit "host") true) eAddr)) r
  else settingsPage E (z.delListener (CZNC.isUnixListener (r.getParam (lit "path") true))) r

def delUser : CZNC R × WebReply :=
  if r.m_bPost = false then
    -- Show the "Are you sure?" page
    if (z.m_msUsers.find (r.getParam (lit "user") false)).isNone then (z, .error (lit "No such user"))
    else (z, .acknowledged)
  else if (z.m_msUsers.find (r.getParam (lit "user") true)).isSome ∧ s.pUser = some (r.getParam (lit "user") true) then
    (z, .error (lit "Please don't delete yourself, suicide is not the answer!"))
  else if (z.m_msUsers.find (r.getParam (lit "user") true)).isNone then (z, .error (lit "No such user"))
  else E.save (.delUser (r.getParam (lit "user") true)) r z

/-- the page of a network of `SafeGetNetworkFromParam` -/
def ofNetwork (page : CString × ℕ → CZNC R × WebReply) : CZNC R × WebReply :=
  if adminOrOwner z s (safeGetNetworkFromParam z r) = false then (z, .unacknowledged)
  else
    match safeGetNetworkFromParam z r with
    | none => (z, .error (lit "No such user or network"))
    | some pNetwork => page pNetwork

def editChan (pNetwork : CString × ℕ) : CZNC R × WebReply :=
  match (z.getNetwork pNetwork).bind fun n => n.findChan (r.safeGetParam (lit "name")) with
  | none => (z, .error (lit "No such channel"))
  | some pChan => chanPage E z r pNetwork (some pChan)

def addNetwork : CZNC R × WebReply :=
  if adminOrSelf z s (safeGetUserFromParam z r) = false then (z, .unacknowledged)
  else
    match safeGetUserFromParam z r with
    | none => (z, .error (lit "No such user"))
    | some sUser =>
      if s.isAdmin z || !s.denySetNetwork z then networkPage E z s r sUser none
      else (z, .error (lit "Permission denied"))

def delNetworkOf : CZNC R × WebReply :=
  if adminOrSelf z s (safeGetUserFromParam z r) = false then (z, .unacknowledged)
  else if s.isAdmin z || !s.denySetNetwork z then delNetwork E z r (safeGetUserFromParam z r)
  else (z, .error (lit "Permission denied"))

/-- `edituser`: without a name it is the user of the session -/
def editUser : CZNC R × WebReply :=
  let pUser := if r.safeGetUsernameParam = [] ∧ safeGetUserFromParam z r = none then s.pUser else safeGetUserFromParam z r
  if adminOrSelf z s pUser = false then (z, .unacknowledged)
  else
    match pUser with
    | none => (z, .error (lit "No such user"))
    | some sUser => userPage E z r (some sUser)

/-- the pages that are for admins only -/
def forAdmins (page : CZNC R × WebReply) : CZNC R × WebReply := if s.isAdmin z = false then (z, .unacknowledged) else page

def onWebRequest (sPageName : CString) : CZNC R × WebReply :=
  if sPageName = lit "settings" then forAdmins z s (settingsPage E z r)
  else if sPageName = lit "adduser" then forAdmins z s (userPage E z r none)
  else if sPageName = lit "addnetwork" then addNetwork E z s r
  else if sPageName = lit "editnetwork" then
    ofNetwork z s r fun pNetwork => networkPage E z s r pNetwork.1 (some pNetwork.2)
  else if sPageName = lit "delnetwork" then delNetworkOf E z s r
  else if sPageName = lit "editchan" then ofNetwork z s r (editChan E z r)
  else if sPageName = lit "addchan" then ofNetwork z s r fun pNetwork => chanPage E z r pNetwork none
  else if sPageName = lit "delchan" then ofNetwork z s r (delChan E z r)
  else if sPageName = lit "deluser" then forAdmins z s (delUser E z s r)
  else if sPageName = lit "edituser" then editUser E z s r
  else if sPageName = lit "listusers" ∧ s.isAdmin z then (z, .acknowledged)
  else if sPageName = lit "traffic" then (z, .acknowledged)
  else if sPageName = lit "index" then (z, .acknowledged)
  else if sPageName = lit "add_listener" then forAdmins z s (addListener E z r)
  else if sPageName = lit "del_listener" then forAdmins z s (delListener E z r)
  else (z, .unacknowledged)

end Webadmin

/-! ## The pages of certauth -/

namespace Certauth

def webPath : CString := lit "/mods/global/certauth/"

def onWebRequest (z : CZNC R) (s : CWebSession) (r : CWebSock) (sPageName : CString) : CZNC R × WebReply :=
  match s.pUser with
  | none => (z, .unacknowledged)
  | some sUser =>
    if sPageName = lit "index" then (z, .acknowledged)
    else if sPageName = lit "add" then
      ({ z with certauth := (z.certauth.addKey sUser (r.getParam (lit "key") true)).1 }, .redirected webPath)
    else if sPageName = lit "delete" then
      ({ z with certauth := z.certauth.delKey sUser (r.getParam (lit "key") false) }, .redirected webPath)
    else (z, .unacknowledged)

end Certauth

/-! ## Requests -/

/-- the module that a URI names, and the page that is asked of it -/
structure Located where
  eModType : EModuleType
  /-- the name of the module itself -/
  sName : CString
  sModName : CString
  sPage : CString
deriving DecidableEq

section Request

variable (z : CZNC R) (s : CWebSession) (r : CWebSock)

/-- "Unknown module type" if it is none -/
def moduleType (sType : CString) : Option EModuleType :=
  if sType.equals (lit "global") then some .GlobalModule
  else if sType.equals (lit "user") then some .UserModule
  else if sType.equals (lit "network") then some .NetworkModule
  else none

/-- the module among those of its type -/
def locateIn (eModType : EModuleType) (vsModules : VCString) (sPath : CString) : Except Answer Located :=
  let sModName := sPath.token 0 false (ch '/') false
  let sPage := sPath.token 1 true (ch '/') false
  match findModule vsModules sModName with
  | none => .error .notFound
  | some sName => .ok ⟨eModType, sName, sModName, if sPage = [] then lit "index" else sPage⟩

/-- a URI under "/mods/" or "/modfiles/" -/
def locate : Except Answer Located :=
  let sURI := r.m_sURI
  -- modules are directories
  if sURI.endsWith (lit "/") = false ∧ sURI.contains (lit ".") = false ∧
      ((sURI.trimLeft (lit "/mods/")).trimLeft (lit "/")).contains (lit "/") = false then
    .error (.redirect (sURI ++ lit "/"))
  else
    let sPath := ((r.getPath.trimLeft (lit "/")).trimPrefix_n (lit "mods/")).trimPrefix_n (lit "modfiles/")
    let sType := sPath.token 0 false (ch '/') false
    let sPath := sPath.token 1 true (ch '/') false
    match moduleType sType, s.getUser z with
    | none, _ => .error (.error 403 (lit "Forbidden") (lit "Unknown module type [" ++ sType ++ lit "]"))
    | some .GlobalModule, _ => locateIn .GlobalModule z.vsModules sPath
    -- ForceLogin
    | some .UserModule, none | some .NetworkModule, none => .error (.redirect (lit "/"))
    | some .UserModule, some u => locateIn .UserModule u.vsModules sPath
    | some .NetworkModule, some u =>
      let sNetwork := sPath.token 0 false (ch '/') false
      match (u.findNetwork sNetwork).bind fun pNetwork => u.m_vIRCNetworks[pNetwork]? with
      | none => .error (.error 404 (lit "Not Found") (lit "Network [" ++ sNetwork ++ lit "] not found."))
      | some n => locateIn .NetworkModule n.vsModules (sPath.token 1 true (ch '/') false)

/-- the error of a missing token -/
def csrfError : Answer :=
  .error 403 (lit "Access denied")
    (lit "POST requests need to send a secret token to prevent cross-site request forgery attacks.")

/-- where a request goes: it is answered by the socket, it is a login, a page of webadmin or certauth, or one of another module -/
inductive Route where
  | answered (a : Answer)
  | login
  | page (l : Located)
  | other (l : Located)
deriving DecidableEq

/-- a module that is webadmin or certauth, up to `OnWebRequest`; both require a login, and no admin -/
def routeModule (l : Located) : Route :=
  let vSubPages := if l.sName = lit "webadmin" then Webadmin.vSubPages else []
  if l.eModType ≠ .GlobalModule ∨ (l.sName ≠ lit "webadmin" ∧ l.sName ≠ lit "certauth") then .other l
  else if r.m_bPost && !r.m_bBasicAuth && !validateCSRFCheck E s r r.m_sURI then .answered csrfError
  else if s.isLoggedIn z = false then .answered (.redirect (lit "/"))
  else if vSubPages.any (fun SubPage => l.sModName = l.sName && l.sPage = SubPage.1 && SubPage.2) && !s.isAdmin z then
    .answered (.error 403 (lit "Forbidden") (lit "You need to be an admin to access this page"))
  else if r.m_sURI.startsWith (lit "/modfiles/") then .answered (.modFile l.sModName (l.sPage.trimLeft (lit "/")))
  else .page l

/-- the page of a template: digits, letters and `_` -/
def isPageName (sPage : CString) : Bool :=
  sPage.length < 32 && sPage.all fun c =>
    (ch '0' ≤ c && c ≤ ch '9') || (ch 'a' ≤ c && c ≤ ch 'z') || (ch 'A' ≤ c && c ≤ ch 'Z') || c = ch '_'

def route : Route :=
  let sURI := r.m_sURI
  if z.bProtectWebSessions ∧ s.sIP ≠ r.sRemoteIP then
    .answered (.error 403 (lit "Access denied") (lit "This session does not belong to your IP."))
  else if r.m_bPost && !r.m_bBasicAuth && !sURI.startsWith (lit "/mods/") && !validateCSRFCheck E s r sURI then
    .answered csrfError
  else if sURI = lit "/" then .answered (.template (lit "index"))
  else if sURI = lit "/favicon.ico" then .answered (.staticFile (lit "/pub/favicon.ico"))
  else if sURI = lit "/robots.txt" then .answered (.staticFile (lit "/pub/robots.txt"))
  -- only the session forgets its user
  else if sURI = lit "/logout" then .answered (.redirect (lit "/"))
  else if sURI = lit "/login" then
    if (r.getParam (lit "submitted") true).toBool then .login else .answered (.redirect (lit "/"))
  else if sURI.startsWith (lit "/pub/") then .answered (.staticFile sURI)
  else if sURI.startsWith (lit "/skinfiles/") then
    let sSkinName := sURI.drop 11
    if ch '/' ∈ sSkinName then
      .answered (.skinFile (sSkinName.takeWhile (· ≠ ch '/')) ((sSkinName.dropWhile (· ≠ ch '/')).drop 1))
    else .answered .notFound
  else if sURI.startsWith (lit "/mods/") || sURI.startsWith (lit "/modfiles/") then
    match locate z s r with
    | .error a => .answered a
    | .ok l => routeModule E z s r l
  else
    let sPage := (sURI.trimLeft (lit "/")).trimRight_n (lit "/")
    if isPageName sPage then .answered (.template sPage) else .answered .notFound

/-- `OnWebRequest` of webadmin or certauth -/
def onWebRequest (l : Located) : CZNC R × WebReply :=
  if l.sName = lit "webadmin" then Webadmin.onWebRequest E z s r l.sPage else Certauth.onWebRequest z s r l.sPage

def onPageRequestInternal : CZNC R × Answer :=
  match route E z s r with
  | .answered a => (z, a)
  -- `AcceptedLogin` or `RefusedLogin` will redirect
  | .login => (E.onLogin (r.getParam (lit "user") true) (r.getParam (lit "pass") true) z, .deferred)
  | .page l => ((onWebRequest E z s r l).1, (onWebRequest E z s r l).2.answer l.sPage)
  | .other l => E.otherPage l.eModType l.sName l.sPage r z

end Request

end ZNC.WebPages
