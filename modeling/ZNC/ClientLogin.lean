/-
A client before it is logged in: PASS, NICK, USER, CAP and AUTHENTICATE of `src/Client.cpp`, with `CAuthBase`.

A password check is an object that modules may keep and answer later. The client keeps a pointer to the last one, through
which its destructor invalidates it. A check was started by PASS, NICK, USER or CAP END (its verdict logs the client in, or
closes it), or by a SASL mechanism (its verdict is sent as a numeric, and the client is logged in at the end of CAP).

Model:
- modules answer through `Hooks`, in any way; they keep a check as long as they want, and answer it more than once;
- a check that nobody may use any more (`Invalidate`) is gone from `auths`; `bDangling` says that a check answered to a client
  that was destroyed before;
- `places` holds an entry for each occurrence of the client in a list of clients;
- of the lines to the client, those of the login are kept; of CAP, what the login depends on. A closed client may still send
  lines, until it is disconnected.
-/
import ZNC.Message
import ZNC.Token
import ZNC.Base64
import ZNC.Lib.Journal

namespace ZNC.Login

open List

/-! ## State -/

structure CUser where
  sUsername : CString
  sUsername_ne : sUsername ≠ []
  sIdent : CString
  bMultiClients : Bool
  vNetworks : List CString
deriving DecidableEq

/-- a list of clients: of a user, or of one of its networks -/
structure Place where
  User : CUser
  pNetwork : Option CString
deriving DecidableEq

/-- `CClientAuth`, or `CClientSASLAuth` of the mechanism `sMechanism` in the exchange `uExchange` -/
structure CAuth where
  uId : ℕ
  bSASL : Bool
  sUsername : CString
  sPassword : CString
  uExchange : ℕ
  sMechanism : CString
deriving DecidableEq

/-- what happened, for the results -/
inductive Entry where
  /-- a line to the client -/
  | put (sLine : CString)
  /-- the numeric 903 or 904 of a SASL exchange -/
  | verdict (uExchange : ℕ) (bAccepted : Bool) (sLine : CString)
  /-- `OnClientSASLAuthenticate` -/
  | authenticate (uExchange : ℕ) (sMechanism sMessage : CString)
  /-- a check of a SASL exchange is started, for the user that the client names or for another one -/
  | check (uExchange : ℕ) (sMechanism : CString) (bMatch : Bool)
  /-- it is answered -/
  | answered (uExchange : ℕ) (sMechanism : CString) (bAccepted : Bool)
  | login (sUsername : CString)
deriving DecidableEq

structure CClient where
  bDestroyed : Bool
  bDangling : Bool
  bGotPass : Bool
  bGotNick : Bool
  bGotUser : Bool
  bInCap : Bool
  bSASLCap : Bool
  sNick : CString
  /-- the nick on the IRC connection of its network -/
  sIRCNick : CString
  sRemoteIP : CString
  sPass : CString
  sUser : CString
  sNetwork : CString
  sIdentifier : CString
  sSASLBuffer : CString
  sSASLMechanism : CString
  sSASLUser : CString
  /-- `m_ssPreviouslyFailedSASLMechanisms` -/
  ssFailed : List CString
  pUser : Option CUser
  pNetwork : Option Place
  /-- `m_spAuth` -/
  spAuth : Option ℕ
  auths : List CAuth
  uNext : ℕ
  uExchange : ℕ
  vUsers : List CUser
  places : List Place
  /-- newest first -/
  log : List Entry
deriving DecidableEq

/-- the constructor, among the users `vUsers` -/
def init (vUsers : List CUser) (sRemoteIP : CString) : CClient :=
  ⟨false, false, false, false, false, false, false, lit "unknown-nick", [], sRemoteIP, [], [], [], [], [], [],
    [], [], none, none,
    none, [], 0, 0, vUsers, [], []⟩

/-- what `OnLoginAttempt` of the modules comes to; if it comes to nothing, what the password and the host are worth -/
inductive Answer where
  | kept
  | accept (User : CUser)
  | refuse (sReason : CString)
  | unanswered (bPass bHost : Bool)
deriving DecidableEq

/-- what `OnClientSASLAuthenticate` of the modules calls -/
inductive Reaction where
  | nothing
  | challenge (sMessage : CString)
  | refuse (sReason : CString)
  | accept (User : CUser)
  | startPasswordCheck (sUser sPassword sAuthorizationId : CString)
deriving DecidableEq

/-- the modules, while one line is handled -/
structure Hooks where
  bHalt : Bool
  onLoginAttempt : Answer
  ssMechanisms : List CString
  onInitialChallenge : CString → Option CString
  /-- for a mechanism and a message: an identity given to `ParseUser`, and the call that follows -/
  onAuthenticate : CString → CString → Option CString × Reaction
  /-- the capabilities of a request are all supported -/
  bSupported : Bool

namespace CClient

/-! ## Names -/

def isAttached (s : CClient) : Bool := s.pUser.isSome

def isDuringSASL (s : CClient) : Bool := s.sSASLMechanism ≠ []

def getNick (s : CClient) : CString := if s.pNetwork = none ∨ s.sIRCNick = [] then s.sNick else s.sIRCNick

/-- `IsValidIdentifier`, on the text up to a NUL -/
def isValidIdentifier (sIdentifier : CString) : Bool :=
  sIdentifier ≠ [] && sIdentifier.cStr.all fun c => c = ch '_' || c = ch '-' || isalnum c

/-- the text in front of the last `c` and the text behind it -/
def cutLast (c : UInt8) (s : CString) : Option (CString × CString) :=
  if c ∈ s then
    some (((s.reverse.dropWhile (· ≠ c)).drop 1).reverse, (s.reverse.takeWhile (· ≠ c)).reverse)
  else none

def parseIdentifier (s : CClient) (sAuthLine : CString) : CClient :=
  match cutLast (ch '@') sAuthLine with
  | some (sName, sId) =>
    if isValidIdentifier sId then { s with sIdentifier := sId, sUser := sName } else { s with sUser := sAuthLine }
  | none => { s with sUser := sAuthLine }

def parseUser (s : CClient) (sAuthLine : CString) : CClient :=
  match cutLast (ch '/') sAuthLine with
  | some (sName, sNet) => parseIdentifier { s with sNetwork := sNet } sName
  | none => parseIdentifier s sAuthLine

def parsePass (s : CClient) (sAuthLine : CString) : CClient :=
  if ch ':' ∈ sAuthLine then
    parseUser { s with sPass := (sAuthLine.dropWhile (· ≠ ch ':')).drop 1 } (sAuthLine.takeWhile (· ≠ ch ':'))
  else { s with sPass := sAuthLine }

def findUser (s : CClient) (sUsername : CString) : Option CUser := s.vUsers.find? (·.sUsername = sUsername)

end CClient

def CUser.findNetwork (User : CUser) (sNetwork : CString) : Option CString :=
  User.vNetworks.find? (·.equals sNetwork)

namespace CClient

/-! ## Lines -/

/-- a numeric from ZNC -/
def numeric (s : CClient) (sNumeric : CString) (sRest : CString) : CString :=
  lit ":irc.znc.in " ++ sNumeric ++ ch ' ' :: s.getNick ++ sRest

def put (s : CClient) (sLine : CString) : CClient := { s with log := .put sLine :: s.log }

def sendRequiredPasswordNotice (s : CClient) : CClient :=
  let s := s.put (s.numeric (lit "464") (lit " :Password required"))
  let s := s.put (lit ":irc.znc.in NOTICE " ++ s.getNick ++
    lit " :*** You need to send your password. Configure your client to send a server password.")
  s.put (lit ":irc.znc.in NOTICE " ++ s.getNick ++
    lit " :*** To connect now, you can use /quote PASS <username>:<password>, or " ++
    lit "/quote PASS <username>/<network>:<password> to connect to a specific network.")

/-- a failed login, without `Close` -/
def refuseLogin (s : CClient) (sReason : CString) : CClient := s.put (s.numeric (lit "464") (lit " :" ++ sReason))

/-! ## Lists of clients -/

/-- the list the client is in -/
def place (s : CClient) : Option Place := s.pNetwork <|> s.pUser.map fun User => ⟨User, none⟩

/-- `ClientConnected` of a network, or `UserConnected` -/
def connected (s : CClient) (p : Place) : CClient :=
  { s with places := (if p.User.bMultiClients then s.places else s.places.filter (· ≠ p)) ++ [p] }

/-- the first half of `SetNetwork`: `ClientDisconnected` of a network, or `UserDisconnected` -/
def leave (s : CClient) : CClient :=
  match s.place with
  | some p => { s with places := s.places.erase p }
  | none => s

def setNetwork (s : CClient) (pNetwork : Option Place) (bReconnect : Bool) : CClient :=
  let s := { s.leave with pNetwork := pNetwork }
  if bReconnect then
    match s.place with
    | some p => s.connected p
    | none => s
  else s

/-! ## Login -/

/-- the network that `AcceptLogin` attaches the client to -/
def selectNetwork (s : CClient) (User : CUser) : Option Place :=
  let found (sNetwork : Option CString) : Option Place := sNetwork.map fun sName => ⟨User, some sName⟩
  if s.sNetwork ≠ [] then found (User.findNetwork s.sNetwork)
  else if User.vNetworks ≠ [] then
    found (User.findNetwork (lit "default") <|> User.findNetwork (lit "user") <|> User.vNetworks.head?)
  else s.pNetwork

def acceptLogin (s : CClient) (User : CUser) : CClient :=
  let s := { s with
    sPass := [], pUser := some User, sSASLMechanism := [], sSASLBuffer := [], sSASLUser := []
    log := .login User.sUsername :: s.log }
  let s := { s with pNetwork := s.selectNetwork User }
  s.setNetwork s.pNetwork true

/-- `AbortSASL`, with the line it sends -/
def abortSASL (s : CClient) (e : Entry) : CClient :=
  { s with log := e :: s.log, sSASLMechanism := [], sSASLBuffer := [] }

def refuseSASLLogin (s : CClient) (uExchange : ℕ) (sReason : CString) : CClient :=
  { s with
    log := .verdict uExchange false (s.numeric (lit "904") (lit " :" ++ sReason)) :: s.log
    ssFailed := s.sSASLMechanism :: s.ssFailed, sSASLMechanism := [], sSASLBuffer := [] }

def acceptSASLLogin (s : CClient) (uExchange : ℕ) (User : CUser) : CClient :=
  let s := s.put (s.numeric (lit "900") (ch ' ' :: s.getNick ++ lit "!" ++ User.sIdent ++ lit "@" ++
    s.sRemoteIP ++ lit " " ++
    User.sUsername ++ lit " :You are now logged in as " ++ User.sUsername))
  { s with
    log := .verdict uExchange true (s.numeric (lit "903") (lit " :SASL authentication successful")) :: s.log
    sSASLMechanism := [], sSASLBuffer := [], sSASLUser := User.sUsername }

/-! ## Checks -/

/-- the log of a check that is answered -/
def answer (s : CClient) (a : CAuth) (bAccepted : Bool) : CClient :=
  if a.bSASL then { s with log := .answered a.uExchange a.sMechanism bAccepted :: s.log } else s

/-- `CAuthBase::AcceptLogin`, and `Invalidate` -/
def authAccept (s : CClient) (a : CAuth) (User : CUser) : CClient :=
  let s := { s with auths := s.auths.erase a }
  (if a.bSASL then s.acceptSASLLogin a.uExchange User else s.acceptLogin User).answer a true

/-- `CAuthBase::RefuseLogin` -/
def authRefuse (s : CClient) (a : CAuth) (sReason : CString) : CClient :=
  let s := { s with auths := s.auths.erase a }
  (if a.bSASL then s.refuseSASLLogin a.uExchange sReason else s.refuseLogin sReason).answer a false

/-- `CZNC::AuthUser` -/
def zncAuthUser (s : CClient) (a : CAuth) : Answer → CClient
  | .kept => s
  | .accept User => s.authAccept a User
  | .refuse sReason => s.authRefuse a sReason
  | .unanswered bPass bHost =>
    match s.findUser a.sUsername with
    | none => s.authRefuse a (lit "Invalid Password")
    | some User =>
      if !bPass then s.authRefuse a (lit "Invalid Password")
      else if !bHost then s.authRefuse a (lit "Your host [" ++ s.sRemoteIP ++ lit "] is not allowed")
      else s.authAccept a User

/-- a new check in `m_spAuth` -/
def makeAuth (s : CClient) (a : CAuth) : CClient :=
  { s with auths := a :: s.auths, spAuth := some a.uId, uNext := s.uNext + 1 }

/-- what `AuthUser` waits for -/
def mayLogin (s : CClient) : Bool :=
  !(!s.bGotNick || !s.bGotUser || s.bInCap || (s.sSASLUser = [] && !s.bGotPass) || s.isAttached)

def authUser (s : CClient) (r : Answer) : CClient :=
  if !s.mayLogin then s
  else if s.sSASLUser = [] then
    let a : CAuth := ⟨s.uNext, false, s.sUser, s.sPass, 0, []⟩
    (s.makeAuth a).zncAuthUser a r
  else
    -- the user may have been deleted meanwhile
    match s.findUser s.sSASLUser with
    | some User => s.acceptLogin User
    | none => s.refuseLogin (lit "SASL login was valid, but user no longer exists")

/-- the identity that was asked for is the one that is checked -/
def identitiesMatch (s : CClient) (sUser sAuthorizationId : CString) : Bool :=
  sUser = (s.parseUser sAuthorizationId).sUser || sUser = sAuthorizationId

def startSASLPasswordCheck (s : CClient) (sUser sPassword sAuthorizationId : CString) (r : Answer) : CClient :=
  let bMatch := s.identitiesMatch sUser sAuthorizationId
  let sMechanism := s.sSASLMechanism
  let s := s.parseUser sAuthorizationId
  -- the check is started even so
  let s := if bMatch then s else s.refuseSASLLogin s.uExchange (lit "No support for custom AuthzId")
  let a : CAuth := ⟨s.uNext, true, s.sUser, sPassword, s.uExchange, sMechanism⟩
  let s := { s.makeAuth a with log := .check s.uExchange sMechanism bMatch :: s.log }
  s.zncAuthUser a r

/-! ## AUTHENTICATE -/

def uMaxSASLMsgLength : ℕ := 400

/-- the loop of `SendSASLChallenge`; `i` is an `int`, compared and cut with as a `size_t` -/
def challengeLoop (sMessage : CString) : ℕ → ℤ → List CString
  | 0, _ => []
  | fuel + 1, i =>
    let u := (i % 2 ^ 64).toNat
    if u < sMessage.length then
      (sMessage.drop u).take uMaxSASLMsgLength :: challengeLoop sMessage fuel ((i + uMaxSASLMsgLength).bmod (2 ^ 32))
    else []

/-- the messages of `SendSASLChallenge` -/
def saslChallenge (sMessage : CString) : List CString :=
  let sMessage := sMessage.base64Encode
  challengeLoop sMessage sMessage.length 0 ++ if sMessage.length % uMaxSASLMsgLength = 0 then [lit "+"] else []

def sendSASLChallenge (s : CClient) (sMessage : CString) : CClient :=
  (saslChallenge sMessage).foldl (fun s sMsgPart => s.put (lit "AUTHENTICATE " ++ sMsgPart)) s

/-- an identity given to `ParseUser` by a module -/
def parseGiven (s : CClient) : Option CString → CClient
  | some sAuthzId => s.parseUser sAuthzId
  | none => s

def call (s : CClient) (a : Answer) : Reaction → CClient
  | .nothing => s
  | .challenge sMessage => s.sendSASLChallenge sMessage
  | .refuse sReason => s.refuseSASLLogin s.uExchange sReason
  | .accept User => s.acceptSASLLogin s.uExchange User
  | .startPasswordCheck sUser sPassword sAuthorizationId => s.startSASLPasswordCheck sUser sPassword sAuthorizationId a

/-- an exchange that does not begin -/
def failExchange (s : CClient) : CClient :=
  { s with
    log := .verdict s.uExchange false (s.numeric (lit "904") (lit " :SASL authentication failed")) :: s.log
    sSASLMechanism := [], sSASLBuffer := [] }

/-- the first AUTHENTICATE of an exchange -/
def selectMechanism (s : CClient) (h : Hooks) (sMessage : CString) : CClient :=
  let s := { s with uExchange := s.uExchange + 1 }
  -- no second password under a mechanism that failed
  if sMessage ∈ s.ssFailed then s.failExchange
  else if sMessage ∉ h.ssMechanisms then
    if h.ssMechanisms = [] then
      (s.put (s.numeric (lit "908") (lit " * :No SASL mechanisms are available"))).failExchange
    else
      (s.put (s.numeric (lit "908") (ch ' ' :: CString.join (lit ",") h.ssMechanisms ++
        lit " :are available SASL mechanisms"))).failExchange
  else
    let s := { s with sSASLMechanism := sMessage }
    match h.onInitialChallenge sMessage with
    | some sChallenge => s.sendSASLChallenge sChallenge
    | none => s

/-- the message that an AUTHENTICATE ends -/
def decoded (s : CClient) (sMessage : CString) : CString :=
  (if sMessage ≠ lit "+" then s.sSASLBuffer ++ sMessage else s.sSASLBuffer).base64Decode

/-- an AUTHENTICATE that ends a message -/
def receiveMessage (s : CClient) (h : Hooks) (sMessage : CString) : CClient :=
  let s := { s with sSASLBuffer := s.decoded sMessage }
  let r := h.onAuthenticate s.sSASLMechanism s.sSASLBuffer
  let s := { s with log := .authenticate s.uExchange s.sSASLMechanism s.sSASLBuffer :: s.log }
  { (s.parseGiven r.1).call h.onLoginAttempt r.2 with sSASLBuffer := [] }

def onAuthenticateMessage (s : CClient) (h : Hooks) (sMessage : CString) : CClient :=
  if !s.bSASLCap then s.put (s.numeric (lit "904") (lit " :SASL not enabled"))
  else if s.sSASLUser ≠ [] ∨ s.isAttached then
    s.put (s.numeric (lit "907") (lit " :You have already authenticated using SASL"))
  else if sMessage.equals (lit "*") then
    s.abortSASL (.put (s.numeric (lit "906") (lit " :SASL authentication aborted")))
  else if sMessage.length > uMaxSASLMsgLength then
    s.abortSASL (.put (s.numeric (lit "905") (lit " :SASL message too long")))
  else if !s.isDuringSASL then s.selectMechanism h sMessage
  else if s.sSASLBuffer.length + sMessage.length > 10 * 1024 then
    s.abortSASL (.verdict s.uExchange false (s.numeric (lit "904") (lit " :SASL response too long")))
  else if sMessage.length = uMaxSASLMsgLength then { s with sSASLBuffer := s.sSASLBuffer ++ sMessage }
  else s.receiveMessage h sMessage

/-! ## CAP -/

/-- the 904 that ends an exchange with its capability, or with CAP -/
def saslAborted (s : CClient) : Entry :=
  .verdict s.uExchange false (s.numeric (lit "904") (lit " :SASL authentication aborted"))

/-- the capability of a token of a request, and whether it is switched on -/
def capToken (sToken : CString) : CString × Bool :=
  if sToken.startsWith (lit "-") then (sToken.trimPrefix_n (lit "-"), false) else (sToken, true)

/-- the handler of a capability, as far as the login goes -/
def setCap (s : CClient) (sToken : CString) : CClient :=
  let (sCap, bVal) := capToken sToken
  if sCap = lit "sasl" then
    let s := if s.isDuringSASL && !bVal then s.abortSASL s.saslAborted else s
    { s with bSASLCap := bVal }
  else s

/-- the capabilities of a request, in order -/
def reqTokens (Message : CMessage) : VCString := (Message.getParam 1).split (ch ' ') false

/-- END, up to `AuthUser` -/
def endCap (s : CClient) : CClient :=
  let s := { s with bInCap := false }
  if !s.isAttached && s.isDuringSASL then s.abortSASL s.saslAborted else s

def handleCap (s : CClient) (h : Hooks) (Message : CMessage) : CClient :=
  let sSubCmd := Message.getParam 0
  if sSubCmd.equals (lit "LS") then { s with bInCap := true }
  else if sSubCmd.equals (lit "END") then
    let s := s.endCap
    if s.isAttached then s
    else if s.bGotUser && s.sSASLUser = [] && !s.bGotPass then s.sendRequiredPasswordNotice
    else s.authUser h.onLoginAttempt
  else if sSubCmd.equals (lit "REQ") then
    let s := { s with bInCap := true }
    if h.bSupported then (reqTokens Message).foldl setCap s else s
  else s

/-! ## Lines from the client -/

/-- PASS, NICK and USER, up to `AuthUser` -/
def gotPass (s : CClient) (sAuthLine : CString) : CClient := { s with bGotPass := true }.parsePass sAuthLine

def gotNick (s : CClient) (sNick : CString) : CClient := { s with sNick := sNick, bGotNick := true }

def gotUser (s : CClient) (sAuthLine : CString) : CClient :=
  let s := if s.sUser = [] ∧ sAuthLine ≠ [] then s.parseUser sAuthLine else s
  { s with bGotUser := true }

/-- the branches of `ReadLine`; what a client that is logged in says to its network is left out -/
inductive Kind where
  | pass
  | nick
  | user
  | capability
  | authenticate
  | other
deriving DecidableEq

def kind (s : CClient) (Message : CMessage) : Kind :=
  if !s.isAttached && Message.sCommand.equals (lit "PASS") then .pass
  else if !s.isAttached && Message.sCommand.equals (lit "NICK") then .nick
  else if !s.isAttached && Message.sCommand.equals (lit "USER") then .user
  else if Message.eType = .Capability then .capability
  else if Message.eType = .Authenticate then .authenticate
  else .other

def readLine (s : CClient) (h : Hooks) (Message : CMessage) : CClient :=
  if h.bHalt then s
  else
    match s.kind Message with
    | .pass => (s.gotPass (Message.getParam 0)).authUser h.onLoginAttempt
    | .nick => (s.gotNick (Message.getParam 0)).authUser h.onLoginAttempt
    | .user =>
      let s := s.gotUser (Message.getParam 0)
      if s.bGotPass || s.sSASLUser ≠ [] then s.authUser h.onLoginAttempt
      else if !s.bInCap then s.sendRequiredPasswordNotice
      else s
    | .capability => s.handleCap h Message
    | .authenticate => s.onAuthenticateMessage h (Message.getParam 0)
    | .other => s

/-- `Disconnected` and the destructor: the check in `m_spAuth` is invalidated -/
def destroy (s : CClient) : CClient :=
  { s.setNetwork none false with bDestroyed := true, auths := s.auths.filter fun a => some a.uId ≠ s.spAuth }

end CClient

/-! ## Runs -/

/-- steps of the client, of the modules that keep its checks, and of others -/
inductive Op where
  | line (h : Hooks) (Message : CMessage)
  | accept (uId : ℕ) (User : CUser)
  | refuse (uId : ℕ) (sReason : CString)
  /-- a challenge sent by a module -/
  | challenge (sMessage : CString)
  | disconnect
  /-- the network is changed by a command of the client, or deleted -/
  | jumpNetwork (pNetwork : Option CString)
  /-- `BounceAllClients`, for another client -/
  | bounce (p : Place)
  /-- a nick from the network -/
  | setNick (sNick sIRCNick : CString)
  | addUser (User : CUser)
  | delUser (sUsername : CString)

namespace CClient

def findAuth (s : CClient) (uId : ℕ) : Option CAuth := s.auths.find? (·.uId = uId)

/-- an answer to the check `uId`, which may be gone, or belong to a destroyed client -/
def complete (s : CClient) (uId : ℕ) (answered : CAuth → CClient) : CClient :=
  match s.findAuth uId with
  | none => s
  | some a => if s.bDestroyed then { s with bDangling := true, auths := s.auths.erase a } else answered a

def exec (s : CClient) : Op → CClient
  | .accept uId User => s.complete uId fun a => s.authAccept a User
  | .refuse uId sReason => s.complete uId fun a => s.authRefuse a sReason
  | .addUser User => if s.findUser User.sUsername = none then { s with vUsers := s.vUsers ++ [User] } else s
  | .delUser sUsername =>
    let t := { s with vUsers := s.vUsers.filter (·.sUsername ≠ sUsername) }
    -- with its clients
    if !s.bDestroyed && s.pUser.any (·.sUsername = sUsername) then t.destroy else t
  | .line h Message => if s.bDestroyed then s else s.readLine h Message
  | .challenge sMessage => if s.bDestroyed then s else s.sendSASLChallenge sMessage
  | .disconnect => if s.bDestroyed then s else s.destroy
  | .jumpNetwork pNetwork =>
    match s.pUser with
    | some User => if s.bDestroyed then s else s.setNetwork (pNetwork.map fun sName => ⟨User, some sName⟩) true
    | none => s
  | .bounce p => if s.bDestroyed then s else { s with places := s.places.filter (· ≠ p) }
  | .setNick sNick sIRCNick => if s.isAttached then { s with sNick := sNick, sIRCNick := sIRCNick } else s

def run (s : CClient) (ops : List Op) : CClient := ops.foldl exec s

/-! ## What a line leads to -/

/-- the state in which a line calls `AuthUser`, if it does -/
def callsAuthUser (s : CClient) (h : Hooks) (Message : CMessage) : Option CClient :=
  if h.bHalt then none
  else
    match s.kind Message with
    | .pass => some (s.gotPass (Message.getParam 0))
    | .nick => some (s.gotNick (Message.getParam 0))
    | .user =>
      let s := s.gotUser (Message.getParam 0)
      if s.bGotPass || s.sSASLUser ≠ [] then some s else none
    | .capability =>
      let s := s.endCap
      if !(Message.getParam 0).equals (lit "LS") && (Message.getParam 0).equals (lit "END") && !s.isAttached &&
          !(s.bGotUser && s.sSASLUser = [] && !s.bGotPass) then some s
      else none
    | _ => none

/-- the tests of an AUTHENTICATE that belongs to an exchange, up to its length -/
def duringExchange (s : CClient) (sMessage : CString) : Bool :=
  s.bSASLCap && s.sSASLUser = [] && !s.isAttached && !sMessage.equals (lit "*") &&
    sMessage.length ≤ uMaxSASLMsgLength && s.isDuringSASL

/-- the reaction of the modules to the message that a line ends, if it ends one -/
def reaction (s : CClient) (h : Hooks) (Message : CMessage) : Option (Option CString × Reaction) :=
  let sMessage := Message.getParam 0
  if !h.bHalt && s.kind Message = .authenticate && s.duringExchange sMessage &&
    s.sSASLBuffer.length + sMessage.length ≤ 10 * 1024 &&
      sMessage.length ≠ uMaxSASLMsgLength then
    some (h.onAuthenticate s.sSASLMechanism (s.decoded sMessage))
  else none

/-! ## What the functions leave alone -/

theorem parseIdentifier_eq (s : CClient) (sAuthLine : CString) :
    ∃ sUser sIdentifier, s.parseIdentifier sAuthLine = { s with sUser := sUser, sIdentifier := sIdentifier } := by
  unfold parseIdentifier
  split
  · split
    · exact ⟨_, _, rfl⟩
    · exact ⟨sAuthLine, s.sIdentifier, rfl⟩
  · exact ⟨sAuthLine, s.sIdentifier, rfl⟩

theorem parseUser_eq (s : CClient) (sAuthLine : CString) :
    ∃ sUser sNetwork sIdentifier,
      s.parseUser sAuthLine = { s with sUser := sUser, sNetwork := sNetwork, sIdentifier := sIdentifier } := by
  unfold parseUser
  split
  · rename_i sName sNet _
    obtain ⟨sUser, sIdentifier, heq⟩ := parseIdentifier_eq { s with sNetwork := sNet } sName
    exact ⟨sUser, sNet, sIdentifier, heq⟩
  · obtain ⟨sUser, sIdentifier, heq⟩ := parseIdentifier_eq s sAuthLine
    exact ⟨sUser, s.sNetwork, sIdentifier, heq⟩

theorem parseUser_sUser (s t : CClient) (sAuthLine : CString) :
    (s.parseUser sAuthLine).sUser = (t.parseUser sAuthLine).sUser := by
  have hid (s t : CClient) (sName : CString) : (s.parseIdentifier sName).sUser = (t.parseIdentifier sName).sUser := by
    unfold parseIdentifier
    split
    · split <;> rfl
    · rfl
  unfold parseUser
  split
  · exact hid _ _ _
  · exact hid _ _ _

theorem identitiesMatch_eq (s t : CClient) (sUser sAuthorizationId : CString) :
    s.identitiesMatch sUser sAuthorizationId = t.identitiesMatch sUser sAuthorizationId := by
  rw [identitiesMatch, identitiesMatch, parseUser_sUser s t]

theorem gotPass_eq (s : CClient) (sAuthLine : CString) :
    ∃ sPass sUser sNetwork sIdentifier, s.gotPass sAuthLine =
      { s with bGotPass := true, sPass := sPass, sUser := sUser, sNetwork := sNetwork,
               sIdentifier := sIdentifier } := by
  unfold gotPass parsePass
  split
  · obtain ⟨sUser, sNetwork, sIdentifier, heq⟩ := parseUser_eq
      { s with bGotPass := true, sPass := (sAuthLine.dropWhile (· ≠ ch ':')).drop 1 } (sAuthLine.takeWhile (· ≠ ch ':'))
    exact ⟨_, sUser, sNetwork, sIdentifier, heq⟩
  · exact ⟨sAuthLine, s.sUser, s.sNetwork, s.sIdentifier, rfl⟩

theorem gotUser_eq (s : CClient) (sAuthLine : CString) :
    ∃ sUser sNetwork sIdentifier, s.gotUser sAuthLine =
      { s with bGotUser := true, sUser := sUser, sNetwork := sNetwork, sIdentifier := sIdentifier } := by
  unfold gotUser
  split
  · obtain ⟨sUser, sNetwork, sIdentifier, heq⟩ := parseUser_eq s sAuthLine
    exact ⟨sUser, sNetwork, sIdentifier, by rw [heq]⟩
  · exact ⟨s.sUser, s.sNetwork, s.sIdentifier, rfl⟩

/-- the same but for what a client says: its names and its password, its capabilities, and the SASL message it has begun -/
def Typed (s t : CClient) : Prop :=
  ∃ (bGotPass bGotNick bGotUser bInCap : Bool) (sNick sPass sUser sNetwork sIdentifier sSASLBuffer : CString),
    t = { s with
      bGotPass := bGotPass, bGotNick := bGotNick, bGotUser := bGotUser, bInCap := bInCap, sNick := sNick
      sPass := sPass, sUser := sUser, sNetwork := sNetwork, sIdentifier := sIdentifier, sSASLBuffer := sSASLBuffer }

theorem parseUser_typed (s : CClient) (sAuthLine : CString) : Typed s (s.parseUser sAuthLine) := by
  obtain ⟨_, _, _, heq⟩ := parseUser_eq s sAuthLine
  exact ⟨_, _, _, _, _, _, _, _, _, _, heq⟩

theorem parseGiven_typed (s : CClient) (sParsed : Option CString) : Typed s (s.parseGiven sParsed) := by
  cases sParsed with
  | some sAuthzId => exact parseUser_typed s sAuthzId
  | none => exact ⟨_, _, _, _, _, _, _, _, _, _, rfl⟩

theorem gotPass_typed (s : CClient) (sAuthLine : CString) : Typed s (s.gotPass sAuthLine) := by
  obtain ⟨_, _, _, _, heq⟩ := gotPass_eq s sAuthLine
  exact ⟨_, _, _, _, _, _, _, _, _, _, heq⟩

theorem gotUser_typed (s : CClient) (sAuthLine : CString) : Typed s (s.gotUser sAuthLine) := by
  obtain ⟨_, _, _, heq⟩ := gotUser_eq s sAuthLine
  exact ⟨_, _, _, _, _, _, _, _, _, _, heq⟩

theorem gotNick_typed (s : CClient) (sNick : CString) : Typed s (s.gotNick sNick) :=
  ⟨_, _, _, _, _, _, _, _, _, _, rfl⟩

theorem inCap_typed (s : CClient) (bInCap : Bool) : Typed s { s with bInCap := bInCap } :=
  ⟨_, _, _, _, _, _, _, _, _, _, rfl⟩

theorem buffer_typed (s : CClient) (sSASLBuffer : CString) : Typed s { s with sSASLBuffer := sSASLBuffer } :=
  ⟨_, _, _, _, _, _, _, _, _, _, rfl⟩

theorem setNetwork_eq (s : CClient) (pNetwork : Option Place) (bReconnect : Bool) :
    ∃ places, s.setNetwork pNetwork bReconnect = { s with pNetwork := pNetwork, places := places } := by
  have hleave : ∃ places, s.leave = { s with places := places } := by
    unfold leave
    split
    · exact ⟨_, rfl⟩
    · exact ⟨s.places, rfl⟩
  obtain ⟨places, hleave⟩ := hleave
  unfold setNetwork
  rw [hleave]
  dsimp only
  split
  · split
    · exact ⟨_, rfl⟩
    · exact ⟨places, rfl⟩
  · exact ⟨places, rfl⟩

theorem acceptLogin_eq (s : CClient) (User : CUser) :
    ∃ pNetwork places, s.acceptLogin User =
      { s with
        sPass := [], pUser := some User, sSASLMechanism := [], sSASLBuffer := [], sSASLUser := []
        pNetwork := pNetwork, places := places, log := .login User.sUsername :: s.log } := by
  unfold acceptLogin
  dsimp only
  generalize selectNetwork _ User = n
  obtain ⟨places, heq⟩ := setNetwork_eq { s with
    sPass := [], pUser := some User, sSASLMechanism := [], sSASLBuffer := [], sSASLUser := []
    log := .login User.sUsername :: s.log, pNetwork := n } n true
  exact ⟨n, places, heq⟩

theorem destroy_eq (s : CClient) :
    ∃ places, s.destroy =
      { s with
        pNetwork := none, places := places, bDestroyed := true
        auths := s.auths.filter fun a => some a.uId ≠ s.spAuth } := by
  obtain ⟨places, heq⟩ := setNetwork_eq s none false
  exact ⟨places, by rw [destroy, heq]⟩

/-- lines to the client -/
def Puts (s t : CClient) : Prop :=
  ∃ new : List Entry, (∀ e ∈ new, ∃ sLine, e = .put sLine) ∧ t = { s with log := new ++ s.log }

theorem Puts.put (s : CClient) (sLine : CString) : Puts s (s.put sLine) :=
  ⟨[.put sLine], fun _ he => ⟨sLine, mem_singleton.1 he⟩, rfl⟩

theorem Puts.refl (s : CClient) : Puts s s := ⟨[], fun _ he => absurd he not_mem_nil, rfl⟩

theorem Puts.trans {s t u : CClient} (h1 : Puts s t) (h2 : Puts t u) : Puts s u := by
  obtain ⟨new1, hnew1, rfl⟩ := h1
  obtain ⟨new2, hnew2, rfl⟩ := h2
  refine ⟨new2 ++ new1, fun e he => ?_, by simp only [append_assoc]⟩
  rcases mem_append.1 he with he | he
  · exact hnew2 e he
  · exact hnew1 e he

theorem sendRequiredPasswordNotice_puts (s : CClient) : Puts s s.sendRequiredPasswordNotice :=
  ((Puts.put s _).trans (Puts.put _ _)).trans (Puts.put _ _)

theorem sendSASLChallenge_puts (s : CClient) (sMessage : CString) : Puts s (s.sendSASLChallenge sMessage) := by
  unfold sendSASLChallenge
  induction saslChallenge sMessage generalizing s with
  | nil => exact Puts.refl s
  | cons sMsgPart parts ih => exact (Puts.put s _).trans (ih _)

/-- the same but for what goes on beside the login: lines to the client, its network, its nicks, the other users, and its end,
with the checks that go with it -/
def Beside (s t : CClient) : Prop :=
  ∃ (bDestroyed : Bool) (sNick sIRCNick : CString) (pNetwork : Option Place) (vUsers : List CUser) (places : List Place)
    (auths : List CAuth) (new : List Entry), auths.Sublist s.auths ∧ (∀ e ∈ new, ∃ sLine, e = .put sLine) ∧
    t = { s with
      bDestroyed := bDestroyed, sNick := sNick, sIRCNick := sIRCNick, pNetwork := pNetwork, vUsers := vUsers
      places := places, auths := auths, log := new ++ s.log }

theorem Beside.refl (s : CClient) : Beside s s :=
  ⟨_, _, _, _, _, _, _, [], List.Sublist.refl _, fun _ he => absurd he not_mem_nil, rfl⟩

theorem destroy_beside (s : CClient) : Beside s s.destroy := by
  obtain ⟨_, heq⟩ := destroy_eq s
  exact ⟨_, _, _, _, _, _, _, [], filter_sublist, fun _ he => absurd he not_mem_nil, heq⟩

theorem exec_cases (s : CClient) (op : Op) :
    (∃ h Message, op = .line h Message) ∨ (∃ uId User, op = .accept uId User) ∨
      (∃ uId sReason, op = .refuse uId sReason) ∨ Beside s (s.exec op) := by
  have hother (t : CClient) {sNick sIRCNick : CString} {pNetwork : Option Place} {vUsers : List CUser} {places : List Place}
      (heq : t = { s with sNick := sNick, sIRCNick := sIRCNick, pNetwork := pNetwork, vUsers := vUsers,
                          places := places }) :
      Beside s t :=
    ⟨_, _, _, _, _, _, _, [], List.Sublist.refl _, fun _ he => absurd he not_mem_nil, heq⟩
  cases op with
  | line h Message => exact .inl ⟨h, Message, rfl⟩
  | accept uId User => exact .inr (.inl ⟨uId, User, rfl⟩)
  | refuse uId sReason => exact .inr (.inr (.inl ⟨uId, sReason, rfl⟩))
  | challenge sMessage =>
    refine .inr (.inr (.inr ?_))
    simp only [exec]
    split_ifs
    · exact Beside.refl s
    · obtain ⟨new, hnew, heq⟩ := sendSASLChallenge_puts s sMessage
      exact ⟨_, _, _, _, _, _, _, new, List.Sublist.refl _, hnew, heq⟩
  | disconnect =>
    refine .inr (.inr (.inr ?_))
    simp only [exec]
    split_ifs
    · exact Beside.refl s
    · exact destroy_beside s
  | jumpNetwork pNetwork =>
    refine .inr (.inr (.inr ?_))
    simp only [exec]
    split
    · rename_i User _
      split_ifs
      · exact Beside.refl s
      · obtain ⟨_, heq⟩ := setNetwork_eq s (pNetwork.map fun sName => ⟨User, some sName⟩) true
        exact hother _ heq
    · exact Beside.refl s
  | bounce p =>
    refine .inr (.inr (.inr ?_))
    simp only [exec]
    split_ifs
    · exact Beside.refl s
    · exact hother _ rfl
  | setNick sNick sIRCNick =>
    refine .inr (.inr (.inr ?_))
    simp only [exec]
    split_ifs
    · exact hother _ rfl
    · exact Beside.refl s
  | addUser User =>
    refine .inr (.inr (.inr ?_))
    simp only [exec]
    split_ifs
    · exact hother _ rfl
    · exact Beside.refl s
  | delUser sUsername =>
    refine .inr (.inr (.inr ?_))
    simp only [exec]
    split_ifs
    · obtain ⟨_, heq⟩ := destroy_eq { s with vUsers := s.vUsers.filter (·.sUsername ≠ sUsername) }
      exact ⟨_, _, _, _, _, _, _, [], filter_sublist, fun _ he => absurd he not_mem_nil, heq⟩
    · exact hother _ rfl

theorem zncAuthUser_cases (s : CClient) (a : CAuth) (r : Answer) :
    (r = .kept ∧ s.zncAuthUser a r = s) ∨ (∃ User, s.zncAuthUser a r = s.authAccept a User) ∨
      ∃ sReason, s.zncAuthUser a r = s.authRefuse a sReason := by
  cases r with
  | kept => exact .inl ⟨rfl, rfl⟩
  | accept User => exact .inr (.inl ⟨User, rfl⟩)
  | refuse sReason => exact .inr (.inr ⟨sReason, rfl⟩)
  | unanswered bPass bHost =>
    simp only [zncAuthUser]
    split
    · exact .inr (.inr ⟨_, rfl⟩)
    · split_ifs
      · exact .inr (.inr ⟨_, rfl⟩)
      · exact .inr (.inr ⟨_, rfl⟩)
      · exact .inr (.inl ⟨_, rfl⟩)

theorem complete_cases (s : CClient) (uId : ℕ) (answered : CAuth → CClient) :
    s.complete uId answered = s ∨ ∃ a ∈ s.auths,
      (s.bDestroyed = true ∧ s.complete uId answered = { s with bDangling := true, auths := s.auths.erase a }) ∨
        s.complete uId answered = answered a := by
  unfold complete
  split
  · exact .inl rfl
  · rename_i a hfind
    refine .inr ⟨a, mem_of_find?_eq_some hfind, ?_⟩
    split_ifs with hd
    · exact .inl ⟨hd, rfl⟩
    · exact .inr rfl

theorem handleCap_cases (s : CClient) (h : Hooks) (Message : CMessage) :
    s.handleCap h Message = s ∨ s.handleCap h Message = { s with bInCap := true } ∨
    ((Message.getParam 0).equals (lit "LS") = false ∧ (Message.getParam 0).equals (lit "END") = true ∧
      (Puts s.endCap (s.handleCap h Message) ∨
        s.handleCap h Message = s.endCap.authUser h.onLoginAttempt ∧ s.endCap.isAttached = false ∧
          (s.endCap.bGotUser && s.endCap.sSASLUser = [] && !s.endCap.bGotPass) = false)) ∨
    ((Message.getParam 0).equals (lit "LS") = false ∧ (Message.getParam 0).equals (lit "END") = false ∧
      (Message.getParam 0).equals (lit "REQ") = true ∧ h.bSupported = true ∧
      s.handleCap h Message = (reqTokens Message).foldl setCap { s with bInCap := true }) := by
  unfold handleCap
  dsimp only
  split_ifs with hls hEND hatt hnotice hreq hsup
  · exact .inr (.inl rfl)
  all_goals rw [Bool.not_eq_true] at hls
  · exact .inr (.inr (.inl ⟨hls, hEND, .inl (Puts.refl _)⟩))
  · exact .inr (.inr (.inl ⟨hls, hEND, .inl (sendRequiredPasswordNotice_puts _)⟩))
  · rw [Bool.not_eq_true] at hatt hnotice
    exact .inr (.inr (.inl ⟨hls, hEND, .inr ⟨rfl, hatt, hnotice⟩⟩))
  · rw [Bool.not_eq_true] at hEND
    exact .inr (.inr (.inr ⟨hls, hEND, hreq, hsup, rfl⟩))
  · exact .inr (.inl rfl)
  · exact .inl rfl

/-- new entries, none of a kind -/
def Adds (p : Entry → Bool) (s t : CClient) : Prop := ∃ new, t.log = new ++ s.log ∧ ∀ e ∈ new, p e = false

section Adds

variable {p : Entry → Bool} {s t u : CClient}

theorem Adds.of_eq (h : t.log = s.log) : Adds p s t := ⟨[], h, fun _ he => nomatch he⟩

theorem Adds.of_entry {e : Entry} (he : p e = false) (h : t.log = e :: s.log) : Adds p s t :=
  ⟨[e], h, fun _ hx => mem_singleton.1 hx ▸ he⟩

theorem Adds.trans (h1 : Adds p s t) (h2 : Adds p t u) : Adds p s u := by
  obtain ⟨new1, hlog1, hnew1⟩ := h1
  obtain ⟨new2, hlog2, hnew2⟩ := h2
  refine ⟨new2 ++ new1, by rw [hlog2, hlog1, append_assoc], fun e he => ?_⟩
  rcases mem_append.1 he with he | he
  · exact hnew2 e he
  · exact hnew1 e he

theorem Adds.mem (h : Adds p s t) {x : Entry} (hx : p x = true) (hmem : x ∈ t.log) : x ∈ s.log := by
  obtain ⟨new, hlog, hnew⟩ := h
  rw [hlog] at hmem
  rcases mem_append.1 hmem with hmem | hmem
  · exact absurd (hnew x hmem) (by simp [hx])
  · exact hmem

theorem Adds.filter (h : Adds p s t) : t.log.filter p = s.log.filter p := by
  obtain ⟨new, hlog, hnew⟩ := h
  have hnil : new.filter p = [] := filter_eq_nil_iff.2 fun e he => by simp [hnew e he]
  rw [hlog, filter_append, hnil, nil_append]

theorem Puts.adds (h : Puts s t) (hp : ∀ sLine, p (.put sLine) = false) : Adds p s t := by
  obtain ⟨new, hnew, rfl⟩ := h
  refine ⟨new, rfl, fun e he => ?_⟩
  obtain ⟨sLine, rfl⟩ := hnew e he
  exact hp sLine

end Adds

end CClient

/-! ## saslplainauth -/

/-- `OnClientSASLAuthenticate` of the module `saslplainauth` -/
def saslPlain (sMechanism sMessage : CString) : Option CString × Reaction :=
  if sMechanism ≠ lit "PLAIN" then (none, .nothing)
  else
    let sAuthzId := sMessage.token 0 false 0 true
    let sAuthcId := sMessage.token 1 false 0 true
    let sPassword := sMessage.token 2 false 0 true
    (none, .startPasswordCheck sAuthcId sPassword (if sAuthzId = [] then sAuthcId else sAuthzId))

/-- the modules of an installation with `saslplainauth`, where checks are answered by `r` -/
def plainHooks (r : Answer) : Hooks := ⟨false, r, [lit "PLAIN"], fun _ => some [], saslPlain, true⟩

def alice : CUser := ⟨lit "alice", by decide, lit "al", true, []⟩

def bob : CUser := ⟨lit "bob", by decide, lit "bo", true, []⟩

/-- a line of the client, whose check is answered by `r` -/
def sends (r : Answer) (sLine : String) : Op :=
  .line (plainHooks r) ((CMessage.ofLine CMessage.stoppedClock (lit sLine)).getD (CMessage.blank CMessage.stoppedClock))

end ZNC.Login
