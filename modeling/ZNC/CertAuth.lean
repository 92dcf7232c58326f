/-
Logins with a client certificate: `modules/certauth.cpp`.

The module has the keys of each user, and the users of each key. A login looks at the one table or at the other, and moves a SHA-1
fingerprint to the SHA-256 one. The registry has the keys of a user as words of a line.

Model: the users are those of `CZNC::FindUser`; a certificate is the digest that OpenSSL makes of it and the fingerprint of
`Csock::GetPeerFingerprint`. `Keys` says what the keys of each user should be after an event; `Session` has both.

Results:
- `addKey_spec`, `delKey_spec`, `migrate_spec`: the two tables after the operations;
- `answer_right`: who is let in;
- `certauth_iff`: the tables are right in every state of a run, and the logins in every step, exactly if every key that is added
  meets `Fit`.
-/
import ZNC.Lib.MultiMap
import ZNC.Lib.Runs
import ZNC.EscapeRoundTrip
import ZNC.ISupport
import ZNC.LoginNames
import ZNC.Registry

namespace ZNC.CertAuth

open CString MultiMap List OrdSet Function

/-! ## Model -/

/-- the users of `CZNC::FindUser` -/
structure Users where
  names : SCString
  valid : ∀ u ∈ names, Login.isValidUserName u = true

/-- `SSL_get_verify_result` -/
inductive VerifyResult where
  | X509_V_OK
  | X509_V_ERR_SELF_SIGNED_CERT_IN_CHAIN
  | X509_V_ERR_UNABLE_TO_VERIFY_LEAF_SIGNATURE
  | X509_V_ERR_DEPTH_ZERO_SELF_SIGNED_CERT
  | other
deriving DecidableEq

/-- the certificate of a client -/
structure Peer where
  res : VerifyResult
  /-- what `Csock::GetPeerFingerprint` has: small hex digits -/
  sSHA1 : CString
  sha1_ne : sSHA1 ≠ []
  sha1_hex : ∀ c ∈ sSHA1, isxdigit c = true ∧ isupper c = false
  /-- `X509_digest` with `EVP_sha256` -/
  digest : CString
  digest_length : digest.length = 256 / 8

/-- "Struct to allow transparent migration from SHA-1 to SHA-256" -/
structure MultiKey where
  sSHA1 : CString
  sSHA256 : CString
deriving DecidableEq

def Peer.getSSLPeerFingerprint (p : Peer) : CString := (p.digest.escape_n .EASCII .EHEXCOLON).getD []

def getKey : Option Peer → MultiKey
  | none => ⟨[], []⟩
  | some p =>
    match p.res with
    | .X509_V_OK | .X509_V_ERR_SELF_SIGNED_CERT_IN_CHAIN | .X509_V_ERR_UNABLE_TO_VERIFY_LEAF_SIGNATURE
    | .X509_V_ERR_DEPTH_ZERO_SELF_SIGNED_CERT => ⟨p.sSHA1, p.getSSLPeerFingerprint⟩
    | .other => ⟨[], []⟩

/-- `CHTTPSock::GetParam` of a raw value, with the filter "\r\n" -/
def getParam (sRaw : CString) : CString := ((Config.trim sRaw).remove_n (ch '\r')).remove_n (ch '\n')

/-- what a login comes to -/
inductive Answer where
  | CONTINUE
  | accepted (sUser : CString)
  | refused (sReason : CString)
deriving DecidableEq

@[ext]
structure CSSLClientCertMod where
  m_PubKeys : OrdMap CString SCString
  m_KeyToUser : OrdMap CString SCString
  m_mssRegistry : MCString

variable (users : Users)

/-- the events; a command and a page are those of a user -/
inductive Event where
  | add (User : { u // u ∈ users.names }) (pSock : Option Peer) (sLine : CString)
  | del (User : { u // u ∈ users.names }) (sLine : CString)
  | webAdd (User : { u // u ∈ users.names }) (sKey : CString)
  | webDelete (User : { u // u ∈ users.names }) (sKey : CString)
  | rehash
  | reload
  /-- a login with a name and a password, on a socket if there is one -/
  | loginAttempt (sUser : CString) (pSock : Option (Option Peer))
  | saslAuthenticate (pClient : Login.CClient) (sMechanism sMessage : CString) (pSock : Option Peer)

namespace CSSLClientCertMod

/-- `sVal` of `Save` -/
def keysLine (ssKeys : SCString) : CString := ssKeys.toList.flatMap (· ++ lit " ")

/-- what `Save` writes -/
def savedKeys (m_PubKeys : OrdMap CString SCString) : MCString :=
  m_PubKeys.entries.foldl (fun mss it => if keysLine it.2 = [] then mss else mss.insert it.1 (keysLine it.2)) .empty

def save (m : CSSLClientCertMod) : CSSLClientCertMod := { m with m_mssRegistry := savedKeys m.m_PubKeys }

/-- `OnBoot` for one key -/
def bootKey (sUser : CString) (m : CSSLClientCertMod) (sKey : CString) : CSSLClientCertMod :=
  { m with m_PubKeys := put m.m_PubKeys sUser sKey.asLower, m_KeyToUser := put m.m_KeyToUser sKey.asLower sUser }

/-- `OnBoot` for one entry of the registry -/
def bootEntry (m : CSSLClientCertMod) (it : CString × CString) : CSSLClientCertMod :=
  if it.1 ∈ users.names then (it.2.split (ch ' ') false).foldl (bootKey it.1) m else m

def onBoot (m : CSSLClientCertMod) : CSSLClientCertMod := m.m_mssRegistry.entries.foldl (bootEntry users) m

/-- the module is unloaded and loaded: the registry is read from the disk -/
def reload (m : CSSLClientCertMod) : CSSLClientCertMod :=
  onBoot users ⟨.empty, .empty,
    (Registry.readFromDisk Registry.defaultFilter (Registry.writeToDisk Registry.defaultFilter m.m_mssRegistry).2).2⟩

def addKey (m : CSSLClientCertMod) (User sKey : CString) : CSSLClientCertMod × Bool :=
  let sKey := sKey.asLower
  if sKey ∈ values m.m_PubKeys User then (m, false)
  else
    let m := { m with m_PubKeys := put m.m_PubKeys User sKey }.save
    ({ m with m_KeyToUser := put m.m_KeyToUser sKey User }, true)

def delKey (m : CSSLClientCertMod) (User sKey : CString) : CSSLClientCertMod :=
  let sKey := sKey.asLower
  if sKey ∈ values m.m_PubKeys User then
    { m with m_PubKeys := drop m.m_PubKeys User sKey, m_KeyToUser := drop m.m_KeyToUser sKey User }.save
  else m

def handleAddCommand (m : CSSLClientCertMod) (User : CString) (pSock : Option Peer) (sLine : CString) :
    CSSLClientCertMod :=
  let sPubKey := sLine.token 1 false (ch ' ') false
  let sPubKey := if sPubKey = [] then (getKey pSock).sSHA256 else sPubKey
  if sPubKey = [] then m else (m.addKey User sPubKey).1

def handleDelCommand (m : CSSLClientCertMod) (User sLine : CString) : CSSLClientCertMod :=
  let id := (sLine.token 1 true (ch ' ') false).toUInt.toNat
  match m.m_PubKeys.find User with
  | none => m
  | some ssKeys =>
    if id = 0 ∨ ssKeys.toList.length < id then m
    else
      let sKey := ssKeys.toList.getD (id - 1) []
      { m with m_PubKeys := drop m.m_PubKeys User sKey, m_KeyToUser := drop m.m_KeyToUser sKey User }.save

def onLoginAttempt (m : CSSLClientCertMod) (sUser : CString) (pSock : Option (Option Peer)) :
    CSSLClientCertMod × Answer :=
  match pSock with
  | none => (m, .CONTINUE)
  | some pSock =>
    if sUser ∉ users.names then (m, .CONTINUE)
    else
      let PubKey := getKey pSock
      if PubKey.sSHA1 = [] then (m, .CONTINUE)
      else if PubKey.sSHA1 ∈ values m.m_PubKeys sUser then
        (((m.addKey sUser PubKey.sSHA256).1.delKey sUser PubKey.sSHA1), .accepted sUser)
      else if PubKey.sSHA256 ∈ values m.m_PubKeys sUser then (m, .accepted sUser)
      else (m, .CONTINUE)

/-- "Found SHA-1 pubkey for SASL, replacing with SHA-256" -/
def migrateUser (Key : MultiKey) (m : CSSLClientCertMod) (sUser2 : CString) : CSSLClientCertMod :=
  if sUser2 ∈ users.names then (m.addKey sUser2 Key.sSHA256).1.delKey sUser2 Key.sSHA1 else m

/-- `OnClientSASLAuthenticate` from the second `m_KeyToUser.find` on -/
def acceptKey (m : CSSLClientCertMod) (Key : MultiKey) (sUser : CString) : Answer :=
  match m.m_KeyToUser.find Key.sSHA256 with
  | none => .refused (lit "Client cert not recognized")
  | some ssUsers =>
    match ssUsers.toList with
    | [] => .refused (lit "Key found, but list of users is empty, please report bug")
    | sFirst :: _ =>
      if sUser ≠ [] ∧ sUser ∉ ssUsers then .refused (lit "The specified user doesn't have this key")
      else
        let sUser := if sUser = [] then sFirst else sUser
        if sUser ∈ users.names then .accepted sUser else .refused (lit "User not found")

def onClientSASLAuthenticate (m : CSSLClientCertMod) (pClient : Login.CClient) (sMechanism sMessage : CString)
    (pSock : Option Peer) : CSSLClientCertMod × Answer :=
  if sMechanism ≠ lit "EXTERNAL" then (m, .CONTINUE)
  else
    let sUser := (pClient.parseUser sMessage).sUser
    let Key := getKey pSock
    if Key.sSHA1 = [] then (m, .refused (lit "No client cert presented"))
    else
      let m := (values m.m_KeyToUser Key.sSHA1).toList.foldl (migrateUser users Key) m
      (m, m.acceptKey users Key sUser)

variable {users}

def step (m : CSSLClientCertMod) : Event users → CSSLClientCertMod
  | .add User pSock sLine => m.handleAddCommand User pSock sLine
  | .del User sLine => m.handleDelCommand User sLine
  | .webAdd User sKey => (m.addKey User (getParam sKey)).1
  | .webDelete User sKey => m.delKey User (getParam sKey)
  | .rehash => m.onBoot users
  | .reload => m.reload users
  | .loginAttempt sUser pSock => (m.onLoginAttempt users sUser pSock).1
  | .saslAuthenticate pClient sMechanism sMessage pSock =>
    (m.onClientSASLAuthenticate users pClient sMechanism sMessage pSock).1

end CSSLClientCertMod

/-! ## The keys that should be there -/

/-- the keys of each user -/
abbrev Keys : Type := CString → SCString

/-- the keys of a user after a login with a key: the SHA-1 fingerprint is replaced -/
def moved (Key : MultiKey) (ssKeys : SCString) : SCString :=
  if Key.sSHA1 ∈ ssKeys then (ssKeys.insert Key.sSHA256).erase Key.sSHA1 else ssKeys

namespace Keys

/-- the key that an Add has: the one that is typed, or that of the client -/
def added (pSock : Option Peer) (sLine : CString) : CString :=
  if sLine.token 1 false (ch ' ') false = [] then (getKey pSock).sSHA256 else sLine.token 1 false (ch ' ') false

variable {users}

/-- what an event does to the keys -/
def step (R : Keys) : Event users → Keys
  | .add User pSock sLine =>
    if added pSock sLine = [] then R else update R User ((R User).insert (added pSock sLine).asLower)
  | .del User sLine =>
    let id := (sLine.token 1 true (ch ' ') false).toUInt.toNat
    if id = 0 ∨ (R User).toList.length < id then R
    else update R User ((R User).erase ((R User).toList.getD (id - 1) []))
  | .webAdd User sKey => update R User ((R User).insert (getParam sKey).asLower)
  | .webDelete User sKey => update R User ((R User).erase (getParam sKey).asLower)
  | .rehash => R
  | .reload => R
  | .loginAttempt _ none => R
  | .loginAttempt sUser (some pSock) =>
    if sUser ∈ users.names ∧ (getKey pSock).sSHA1 ≠ [] then update R sUser
      (moved (getKey pSock) (R sUser)) else R
  | .saslAuthenticate _ sMechanism _ pSock =>
    if sMechanism = lit "EXTERNAL" ∧ (getKey pSock).sSHA1 ≠ [] then fun u => moved (getKey pSock) (R u) else R

/-- a key is presented, and one of its fingerprints is registered for the user -/
def Registered (R : Keys) (pSock : Option Peer) (sUser : CString) : Prop :=
  (getKey pSock).sSHA1 ≠ [] ∧ ((getKey pSock).sSHA1 ∈ R sUser ∨ (getKey pSock).sSHA256 ∈ R sUser)

end Keys

/-- the module, and the keys that should be there -/
structure Session where
  mod : CSSLClientCertMod
  keys : Keys

variable {users}

def Session.step (s : Session) (ev : Event users) : Session := ⟨s.mod.step ev, s.keys.step ev⟩

def Session.start : Session := ⟨⟨.empty, .empty, .empty⟩, fun _ => .empty⟩

/-- the tables have the keys that should be there, are inverse, and come back when the module is loaded again -/
structure Good (users : Users) (s : Session) : Prop where
  keys : ∀ u, values s.mod.m_PubKeys u = s.keys u
  inverse : Inverse s.mod.m_PubKeys s.mod.m_KeyToUser
  pub : (s.mod.reload users).m_PubKeys = s.mod.m_PubKeys
  key : (s.mod.reload users).m_KeyToUser = s.mod.m_KeyToUser

/-- a login is accepted exactly for those who have registered the key -/
def Right (s : Session) : Event users → Prop
  | .loginAttempt _ none => True
  | .loginAttempt sUser (some pSock) => ∀ v, (s.mod.onLoginAttempt users sUser (some pSock)).2 = .accepted v ↔
      v = sUser ∧ v ∈ users.names ∧ s.keys.Registered pSock v
  | .saslAuthenticate pClient sMechanism sMessage pSock =>
    let answer := (s.mod.onClientSASLAuthenticate users pClient sMechanism sMessage pSock).2
    let sUser := (pClient.parseUser sMessage).sUser
    sMechanism = lit "EXTERNAL" →
      (sUser ≠ [] → ∀ v, answer = .accepted v ↔ v = sUser ∧ v ∈ users.names ∧ s.keys.Registered pSock v) ∧
      (sUser = [] → (∀ v, answer = .accepted v → s.keys.Registered pSock v) ∧
        ((∃ v, answer = .accepted v) ↔ ∃ v, s.keys.Registered pSock v))
  | _ => True

/-- a key that is a word of a line -/
def Fit (sKey : CString) : Prop := sKey ≠ [] ∧ ch ' ' ∉ sKey ∧ 0 ∉ sKey

/-- the keys that are added can be words of a line -/
def Meets (_ : Session) : Event users → Prop
  | .add _ pSock sLine => Keys.added pSock sLine ≠ [] → Fit (Keys.added pSock sLine)
  | .webAdd _ sKey => Fit (getParam sKey)
  | _ => True

/-! ## Fingerprints -/

theorem fit_asLower {sKey : CString} : Fit sKey.asLower ↔ Fit sKey := by
  have hne : sKey.asLower ≠ [] ↔ sKey ≠ [] := by
    rw [asLower, ne_eq, map_eq_nil_iff]
  rw [Fit, Fit, hne, mem_asLower (by decide), mem_asLower (by decide)]

theorem asLower_eq_self {s : CString} (h : ∀ c ∈ s, isupper c = false) : s.asLower = s := by
  have hmap : s.map tolower = s.map id := map_congr_left fun c hc => by
    rw [tolower, if_neg (by simp [h c hc])]
    rfl
  rw [asLower, hmap, map_id]

theorem fingerprint_eq (p : Peer) : ∃ c d s, p.getSSLPeerFingerprint = hexPair c ++ (d :: s).flatMap colonPair := by
  have hlength := p.digest_length
  cases hdigest : p.digest with
  | nil => simp [hdigest] at hlength
  | cons c s =>
    cases s with
    | nil => simp [hdigest] at hlength
    | cons d s =>
      refine ⟨c, d, s, ?_⟩
      rw [Peer.getSSLPeerFingerprint, escape_n_ascii _ _ (by rw [hlength]; decide), Option.getD_some, hdigest,
        escaped_hexColon_cons]

theorem mem_fingerprint {p : Peer} {c : UInt8} (hc : c ∈ p.getSSLPeerFingerprint) :
    (isxdigit c = true ∨ c = ch ':') ∧ isupper c = false := by
  have hpair : ∀ b, ∀ c ∈ hexPair b, (isxdigit c = true ∨ c = ch ':') ∧ isupper c = false := by
    intro b c hc
    obtain ⟨hhigh, hlow, -⟩ := hexByte_szHex_lower b
    simp only [hexPair, mem_cons, not_mem_nil, or_false] at hc
    rcases hc with rfl | rfl
    · exact ⟨.inl hhigh, isupper_tolower _⟩
    · exact ⟨.inl hlow, isupper_tolower _⟩
  obtain ⟨b, d, s, heq⟩ := fingerprint_eq p
  rw [heq, mem_append] at hc
  rcases hc with hc | hc
  · exact hpair b c hc
  · obtain ⟨e, -, hc⟩ := mem_flatMap.1 hc
    rcases mem_cons.1 hc with rfl | hc
    · exact ⟨.inr rfl, by decide⟩
    · exact hpair e c hc

/-- **The fingerprints of a key that is presented** -/
theorem getKey_spec {pSock : Option Peer} (h : (getKey pSock).sSHA1 ≠ []) :
    (getKey pSock).sSHA1.asLower = (getKey pSock).sSHA1 ∧ (getKey pSock).sSHA256.asLower = (getKey pSock).sSHA256 ∧
      Fit (getKey pSock).sSHA256 ∧ (getKey pSock).sSHA1 ≠ (getKey pSock).sSHA256 := by
  cases pSock with
  | none => exact absurd rfl h
  | some p =>
    have hkey : getKey (some p) = ⟨p.sSHA1, p.getSSLPeerFingerprint⟩ ∨ getKey (some p) = ⟨[], []⟩ := by
      rw [getKey]
      cases p.res <;> simp
    rcases hkey with hkey | hkey
    · rw [hkey]
      obtain ⟨b, d, s, heq⟩ := fingerprint_eq p
      have hcolon : ch ':' ∈ p.getSSLPeerFingerprint := by
        rw [heq, flatMap_cons, colonPair]
        simp
      refine ⟨asLower_eq_self fun c hc => (p.sha1_hex c hc).2, asLower_eq_self fun c hc => (mem_fingerprint hc).2,
        ⟨ne_nil_of_mem hcolon, fun hspace => ?_, fun hnul => ?_⟩, fun hsame => ?_⟩
      · exact absurd (mem_fingerprint hspace).1 (by decide)
      · exact absurd (mem_fingerprint hnul).1 (by decide)
      · have heq' : p.sSHA1 = p.getSSLPeerFingerprint := hsame
        exact absurd (p.sha1_hex _ (by rw [heq']; exact hcolon)).1 (by decide)
    · rw [hkey] at h
      exact absurd rfl h

/-! ## Saving and loading -/

namespace CSSLClientCertMod

theorem split_keysLine {ssKeys : SCString} (hfit : ∀ k ∈ ssKeys, Fit k) :
    (keysLine ssKeys).split (ch ' ') false = ssKeys.toList := by
  have hloop : ∀ ws : VCString, (∀ w ∈ ws, Fit w) → splitLoop (ch ' ') false [] (ws.flatMap (· ++ lit " ")) = ws := by
    intro ws hws
    induction ws with
    | nil => rfl
    | cons w ws ih =>
      obtain ⟨hne, hspace, -⟩ := hws w mem_cons_self
      have hkeep : (false || decide (w ≠ [])) = true := by simpa using hne
      have hline : (w :: ws).flatMap (· ++ lit " ") = w ++ ch ' ' :: ws.flatMap (· ++ lit " ") := by
        simp [lit, ch]
      rw [hline, splitLoop_append hspace, nil_append, splitLoop, if_pos rfl, if_pos hkeep,
        ih fun v hv => hws v (mem_cons_of_mem w hv)]
  have hnul : (0 : UInt8) ∉ keysLine ssKeys := by
    intro hmem
    obtain ⟨w, hw, hzero⟩ := mem_flatMap.1 hmem
    rcases mem_append.1 hzero with hzero | hzero
    · exact (hfit w hw).2.2 hzero
    · exact absurd hzero (by decide)
  rw [split, cStr_eq_self hnul]
  exact hloop ssKeys.toList hfit

theorem find_savedKeys (m_PubKeys : OrdMap CString SCString) (u sVal : CString) :
    (savedKeys m_PubKeys).find u = some sVal ↔
    ∃ ssKeys, m_PubKeys.find u = some ssKeys ∧ keysLine ssKeys = sVal ∧ ¬ keysLine ssKeys = [] :=
  OrdMap.find_foldl_unless keysLine (fun ssKeys => keysLine ssKeys = []) m_PubKeys u sVal

/-- the tables belong together, have the keys of users only, and are saved -/
structure Inv (users : Users) (m : CSSLClientCertMod) : Prop where
  pub : Full m.m_PubKeys
  key : Full m.m_KeyToUser
  inverse : Inverse m.m_PubKeys m.m_KeyToUser
  user : ∀ u k, k ∈ values m.m_PubKeys u → u ∈ users.names
  fit : ∀ u k, k ∈ values m.m_PubKeys u → Fit k ∧ k.asLower = k
  saved : m.m_mssRegistry = savedKeys m.m_PubKeys

/-- what a boot adds: the tables stay full and inverse, and get the keys `new` -/
structure Booted (m m' : CSSLClientCertMod) (new : CString → CString → Prop) : Prop where
  pub : Full m.m_PubKeys → Full m'.m_PubKeys
  key : Full m.m_KeyToUser → Full m'.m_KeyToUser
  inverse : Inverse m.m_PubKeys m.m_KeyToUser → Inverse m'.m_PubKeys m'.m_KeyToUser
  registry : m'.m_mssRegistry = m.m_mssRegistry
  keys : ∀ u k, k ∈ values m'.m_PubKeys u ↔ new u k ∨ k ∈ values m.m_PubKeys u

variable {m : CSSLClientCertMod}

theorem booted_words (m : CSSLClientCertMod) (sUser : CString) (ws : VCString) :
    Booted m (ws.foldl (bootKey sUser) m) fun u k => u = sUser ∧ k ∈ ws.map asLower := by
  induction ws generalizing m with
  | nil => exact ⟨id, id, id, rfl, fun u k => by simp⟩
  | cons w ws ih =>
    obtain ⟨hpub, hkey, hinverse, hregistry, hkeys⟩ := ih (bootKey sUser m w)
    refine ⟨fun h => hpub (h.put _ _), fun h => hkey (h.put _ _), fun h => hinverse (h.put _ _),
      hregistry, fun u k => ?_⟩
    rw [foldl_cons, hkeys, bootKey, mem_put, map_cons, mem_cons]
    tauto

theorem booted_entries (users : Users) (m : CSSLClientCertMod) (l : List (CString × CString)) :
    Booted m (l.foldl (bootEntry users) m) fun u k =>
      u ∈ users.names ∧ ∃ sVal, (u, sVal) ∈ l ∧ k ∈ (sVal.split (ch ' ') false).map asLower := by
  induction l generalizing m with
  | nil => exact ⟨id, id, id, rfl, fun u k => by simp⟩
  | cons it l ih =>
    obtain ⟨hpub, hkey, hinverse, hregistry, hkeys⟩ := ih (bootEntry users m it)
    have hone : Booted m (bootEntry users m it) fun u k =>
        u ∈ users.names ∧ u = it.1 ∧ k ∈ (it.2.split (ch ' ') false).map asLower := by
      unfold bootEntry
      split_ifs with huser
      · obtain ⟨hpub, hkey, hinverse, hregistry, hkeys⟩ := booted_words m it.1 (it.2.split (ch ' ') false)
        refine ⟨hpub, hkey, hinverse, hregistry, fun u k => ?_⟩
        rw [hkeys]
        constructor
        · rintro (⟨rfl, hk⟩ | hk)
          · exact .inl ⟨huser, rfl, hk⟩
          · exact .inr hk
        · rintro (⟨-, hu, hk⟩ | hk)
          · exact .inl ⟨hu, hk⟩
          · exact .inr hk
      · refine ⟨id, id, id, rfl, fun u k => ⟨.inr, ?_⟩⟩
        rintro (⟨hu, rfl, -⟩ | hk)
        · exact absurd hu huser
        · exact hk
    refine ⟨fun h => hpub (hone.pub h), fun h => hkey (hone.key h), fun h => hinverse (hone.inverse h),
      hregistry.trans hone.registry, fun u k => ?_⟩
    rw [foldl_cons, hkeys, hone.keys]
    constructor
    · rintro (⟨hu, sVal, hmem, hk⟩ | ⟨hu, rfl, hk⟩ | hk)
      · exact .inl ⟨hu, sVal, mem_cons_of_mem it hmem, hk⟩
      · exact .inl ⟨hu, it.2, mem_cons_self, hk⟩
      · exact .inr hk
    · rintro (⟨hu, sVal, hmem, hk⟩ | hk)
      · rcases mem_cons.1 hmem with rfl | hmem
        · exact .inr (.inl ⟨hu, rfl, hk⟩)
        · exact .inl ⟨hu, sVal, hmem, hk⟩
      · exact .inr (.inr hk)

theorem Inv.registry_keys (h : Inv users m) (u k : CString) :
    (u ∈ users.names ∧ ∃ sVal, (u, sVal) ∈ m.m_mssRegistry.entries ∧ k ∈ (sVal.split (ch ' ') false).map asLower) ↔
      k ∈ values m.m_PubKeys u := by
  have hwords : ∀ ssKeys, m.m_PubKeys.find u = some ssKeys →
      ((keysLine ssKeys).split (ch ' ') false).map asLower = ssKeys.toList := by
    intro ssKeys hfind
    have hvalues : values m.m_PubKeys u = ssKeys := (h.pub.find.1 hfind).1
    rw [split_keysLine fun k hk => (h.fit u k (hvalues ▸ hk)).1]
    exact (map_congr_left fun k hk => (h.fit u k (hvalues ▸ hk)).2).trans (map_id _)
  constructor
  · rintro ⟨-, sVal, hmem, hk⟩
    rw [OrdMap.mem_entries_iff, h.saved, find_savedKeys] at hmem
    obtain ⟨ssKeys, hfind, rfl, -⟩ := hmem
    rw [hwords ssKeys hfind] at hk
    exact (h.pub.find.1 hfind).1 ▸ hk
  · intro hk
    have hfind : m.m_PubKeys.find u = some (values m.m_PubKeys u) := h.pub.find.2 ⟨rfl, k, hk⟩
    refine ⟨h.user u k hk, keysLine (values m.m_PubKeys u), ?_, by rw [hwords _ hfind]; exact hk⟩
    rw [OrdMap.mem_entries_iff, h.saved, find_savedKeys]
    refine ⟨_, hfind, rfl, fun hnil => ?_⟩
    have hnone := hwords _ hfind
    rw [hnil] at hnone
    exact absurd (hnone ▸ (mem_toList _ _).2 hk) not_mem_nil

theorem Inv.onBoot_eq (h : Inv users m) : m.onBoot users = m := by
  obtain ⟨hpub, hkey, hinverse, hregistry, hkeys⟩ := booted_entries users m m.m_mssRegistry.entries
  have hsame : ∀ u k, k ∈ values (m.onBoot users).m_PubKeys u ↔ k ∈ values m.m_PubKeys u := by
    intro u k
    rw [onBoot, hkeys, h.registry_keys, or_self]
  have hpubEq : (m.onBoot users).m_PubKeys = m.m_PubKeys := ext_mem (hpub h.pub) h.pub hsame
  have hkeyEq : (m.onBoot users).m_KeyToUser = m.m_KeyToUser := ext_mem (hkey h.key) h.key fun k u => by
    rw [← h.inverse u k, ← hsame u k, onBoot, hinverse h.inverse u k]
  exact CSSLClientCertMod.ext hpubEq hkeyEq hregistry

theorem Inv.registry_back (h : Inv users m) :
    (Registry.readFromDisk Registry.defaultFilter (Registry.writeToDisk Registry.defaultFilter m.m_mssRegistry).2).2 =
      m.m_mssRegistry := by
  rw [(Registry.registry_round_trip m.m_mssRegistry).2]
  apply OrdMap.ext_find
  intro u
  rw [OrdMap.find_erase]
  split_ifs with hu
  · subst hu
    symm
    rw [Option.eq_none_iff_forall_ne_some, h.saved]
    intro sVal hfind
    obtain ⟨ssKeys, hkeys, -⟩ := (find_savedKeys _ _ _).1 hfind
    obtain ⟨hvalues, k, hk⟩ := h.pub.find.1 hkeys
    exact absurd (users.valid [] (h.user [] k (hvalues ▸ hk))) (by decide)
  · rfl

theorem Inv.reload_eq (h : Inv users m) : m.reload users = m := by
  have hempty : ∀ u k, k ∉ values (.empty : OrdMap CString SCString) u := fun u k => not_mem_empty k
  rw [reload, h.registry_back, onBoot]
  dsimp only
  obtain ⟨hpub, hkey, hinverse, hregistry, hkeys⟩ :=
    booted_entries users ⟨.empty, .empty, m.m_mssRegistry⟩ m.m_mssRegistry.entries
  set m' := m.m_mssRegistry.entries.foldl (bootEntry users) ⟨.empty, .empty, m.m_mssRegistry⟩ with hm'
  have hsame : ∀ u k, k ∈ values m'.m_PubKeys u ↔ k ∈ values m.m_PubKeys u := by
    intro u k
    rw [hkeys, h.registry_keys, or_iff_left (hempty u k)]
  have hpubEq : m'.m_PubKeys = m.m_PubKeys := ext_mem (hpub .empty) h.pub hsame
  have hkeyEq : m'.m_KeyToUser = m.m_KeyToUser := ext_mem (hkey .empty) h.key fun k u => by
    rw [← h.inverse u k, ← hsame u k, hinverse .empty u k]
  exact CSSLClientCertMod.ext hpubEq hkeyEq hregistry

/-! ## The operations -/

theorem savedKeys_addKey (m : CSSLClientCertMod) (User sKey : CString) (h : m.m_mssRegistry = savedKeys m.m_PubKeys) :
    (m.addKey User sKey).1.m_mssRegistry = savedKeys (m.addKey User sKey).1.m_PubKeys := by
  unfold addKey
  dsimp only
  split_ifs
  · exact h
  · rfl

theorem values_addKey (m : CSSLClientCertMod) (User sKey u : CString) :
    values (m.addKey User sKey).1.m_PubKeys u =
      if u = User then (values m.m_PubKeys User).insert sKey.asLower else values m.m_PubKeys u := by
  unfold addKey
  dsimp only
  split_ifs with hmem hu hu
  · subst hu
    apply OrdSet.ext_mem
    intro k
    rw [mem_insert]
    constructor
    · exact .inr
    · rintro (rfl | hk)
      · exact hmem
      · exact hk
  · rfl
  · exact (values_put _ _ _ _).trans (if_pos hu)
  · exact (values_put _ _ _ _).trans (if_neg hu)

theorem addKey_inverse {User sKey : CString} (h : Inverse m.m_PubKeys m.m_KeyToUser) :
    Inverse (m.addKey User sKey).1.m_PubKeys (m.addKey User sKey).1.m_KeyToUser := by
  unfold addKey
  dsimp only
  split_ifs
  · exact h
  · exact h.put _ _

theorem addKey_spec (h : Inv users m) {User sKey : CString} (huser : User ∈ users.names) (hfit : Fit sKey) :
    Inv users (m.addKey User sKey).1 := by
  have hkeys : ∀ u k, k ∈ values (m.addKey User sKey).1.m_PubKeys u →
      (u = User ∧ k = sKey.asLower) ∨ k ∈ values m.m_PubKeys u := by
    intro u k hk
    rw [values_addKey] at hk
    split_ifs at hk with hu
    · rw [hu]
      exact ((mem_insert _ _ _).1 hk).imp_left fun hk => ⟨rfl, hk⟩
    · exact .inr hk
  constructor
  · unfold addKey
    dsimp only
    split_ifs
    · exact h.pub
    · exact h.pub.put _ _
  · unfold addKey
    dsimp only
    split_ifs
    · exact h.key
    · exact h.key.put _ _
  · exact addKey_inverse h.inverse
  · intro u k hk
    rcases hkeys u k hk with ⟨rfl, -⟩ | hk
    · exact huser
    · exact h.user u k hk
  · intro u k hk
    rcases hkeys u k hk with ⟨-, rfl⟩ | hk
    · exact ⟨fit_asLower.2 hfit, asLower_asLower sKey⟩
    · exact h.fit u k hk
  · exact savedKeys_addKey m User sKey h.saved

theorem values_delKey (m : CSSLClientCertMod) (User sKey u : CString) : values (m.delKey User sKey).m_PubKeys u =
    if u = User then (values m.m_PubKeys User).erase sKey.asLower else values m.m_PubKeys u := by
  unfold delKey
  dsimp only
  split_ifs with hmem hu hu
  · exact (values_drop _ _ _ _).trans (if_pos hu)
  · exact (values_drop _ _ _ _).trans (if_neg hu)
  · subst hu
    apply OrdSet.ext_mem
    intro k
    rw [mem_erase]
    exact ⟨fun hk => ⟨fun heq => hmem (heq ▸ hk), hk⟩, And.right⟩
  · rfl

theorem delKey_spec (h : Inv users m) (User sKey : CString) : Inv users (m.delKey User sKey) := by
  have hkeys : ∀ u k, k ∈ values (m.delKey User sKey).m_PubKeys u → k ∈ values m.m_PubKeys u := by
    intro u k hk
    rw [values_delKey] at hk
    split_ifs at hk with hu
    · rw [hu]
      exact ((mem_erase _ _ _).1 hk).2
    · exact hk
  refine ⟨?_, ?_, ?_, fun u k hk => h.user u k (hkeys u k hk), fun u k hk => h.fit u k (hkeys u k hk), ?_⟩
  · unfold delKey
    dsimp only
    split_ifs
    · exact h.pub.drop _ _
    · exact h.pub
  · unfold delKey
    dsimp only
    split_ifs
    · exact h.key.drop _ _
    · exact h.key
  · unfold delKey
    dsimp only
    split_ifs
    · exact h.inverse.drop _ _
    · exact h.inverse
  · unfold delKey
    dsimp only
    split_ifs
    · rfl
    · exact h.saved

theorem handleDelCommand_eq (h : Inv users m) (User sLine : CString) :
    m.handleDelCommand User sLine =
      if (sLine.token 1 true (ch ' ') false).toUInt.toNat = 0 ∨
        (values m.m_PubKeys User).toList.length < (sLine.token 1 true (ch ' ') false).toUInt.toNat then m
      else m.delKey User ((values m.m_PubKeys User).toList.getD ((sLine.token 1 true (ch ' ') false).toUInt.toNat - 1) []) := by
  unfold handleDelCommand
  cases hfind : m.m_PubKeys.find User with
  | none =>
    have hvalues : values m.m_PubKeys User = .empty := by rw [values, hfind, Option.getD_none]
    rw [hvalues]
    dsimp only
    rw [if_pos]
    have hlength : (OrdSet.empty : SCString).toList.length = 0 := rfl
    omega
  | some ssKeys =>
    obtain ⟨hvalues, -⟩ := h.pub.find.1 hfind
    rw [hvalues]
    dsimp only
    split_ifs with hid
    · rfl
    · have hmem : ssKeys.toList.getD ((sLine.token 1 true (ch ' ') false).toUInt.toNat - 1) [] ∈ ssKeys := by
        rw [← mem_toList, getD_eq_getElem?_getD, getElem?_eq_getElem (by omega), Option.getD_some]
        exact getElem_mem _
      have hlower := (h.fit User _ (by rw [hvalues]; exact hmem)).2
      rw [delKey, hlower, hvalues, if_pos hmem]

/-- one user after the other gets the new fingerprint for the old one -/
theorem migrate_spec (h : Inv users m) {Key : MultiKey} (hlower : Key.sSHA1.asLower = Key.sSHA1)
    (hlower' : Key.sSHA256.asLower = Key.sSHA256) (hfit : Fit Key.sSHA256) {us : List CString} (hnodup : us.Nodup)
    (husers : ∀ u ∈ us, u ∈ users.names) :
    Inv users (us.foldl (migrateUser users Key) m) ∧ ∀ u, values (us.foldl (migrateUser users Key) m).m_PubKeys u =
      if u ∈ us then ((values m.m_PubKeys u).insert Key.sSHA256).erase Key.sSHA1 else values m.m_PubKeys u := by
  induction us generalizing m with
  | nil => exact ⟨h, fun u => rfl⟩
  | cons v us ih =>
    obtain ⟨hv, hnodup⟩ := nodup_cons.1 hnodup
    have huser : v ∈ users.names := husers v mem_cons_self
    have hone : migrateUser users Key m v = (m.addKey v Key.sSHA256).1.delKey v Key.sSHA1 := if_pos huser
    obtain ⟨hinv, hvalues⟩ := ih (m := migrateUser users Key m v)
      (hone ▸ delKey_spec (addKey_spec h huser hfit) v Key.sSHA1) hnodup fun u hu =>
        husers u (mem_cons_of_mem v hu)
    refine ⟨hinv, fun u => ?_⟩
    rw [foldl_cons, hvalues, hone, values_delKey, values_addKey, values_addKey, hlower, hlower']
    by_cases huv : u = v
    · subst huv
      simp [hv]
    · simp [huv]

end CSSLClientCertMod

open CSSLClientCertMod

/-! ## The logins -/

variable {s : Session}

/-- the keys are those that should be there, and their tables belong together -/
structure Ok (users : Users) (s : Session) : Prop where
  inv : Inv users s.mod
  keys : ∀ u, values s.mod.m_PubKeys u = s.keys u

theorem Ok.good (h : Ok users s) : Good users s :=
  ⟨h.keys, h.inv.inverse, by rw [h.inv.reload_eq], by rw [h.inv.reload_eq]⟩

theorem mem_moved {Key : MultiKey} {ssKeys : SCString} (hne : Key.sSHA1 ≠ Key.sSHA256) :
    Key.sSHA256 ∈ moved Key ssKeys ↔ Key.sSHA1 ∈ ssKeys ∨ Key.sSHA256 ∈ ssKeys := by
  rw [moved]
  split_ifs with hmem
  · simp [hmem, hne.symm]
  · simp [hmem]

theorem migrate_all (h : Inv users s.mod) {Key : MultiKey} (hlower : Key.sSHA1.asLower = Key.sSHA1)
    (hlower' : Key.sSHA256.asLower = Key.sSHA256) (hfit : Fit Key.sSHA256) :
    Inv users ((values s.mod.m_KeyToUser Key.sSHA1).toList.foldl (migrateUser users Key) s.mod) ∧
      ∀ u, values ((values s.mod.m_KeyToUser Key.sSHA1).toList.foldl (migrateUser users Key) s.mod).m_PubKeys u =
        moved Key (values s.mod.m_PubKeys u) := by
  have husers : ∀ u ∈ (values s.mod.m_KeyToUser Key.sSHA1).toList, u ∈ users.names := fun u hu =>
    h.user u Key.sSHA1 ((h.inverse u Key.sSHA1).2 ((mem_toList _ _).1 hu))
  obtain ⟨hinv, hvalues⟩ := migrate_spec h hlower hlower' hfit (toList_nodup _) husers
  refine ⟨hinv, fun u => ?_⟩
  rw [hvalues, moved]
  simp only [mem_toList, ← h.inverse u Key.sSHA1]

/-- **Who is let in**: the login with a name, by the table of the users -/
theorem loginAttempt_right (h : Ok users s) (sUser : CString) (pSock : Option Peer) (v : CString) :
    (s.mod.onLoginAttempt users sUser (some pSock)).2 = .accepted v ↔
      v = sUser ∧ v ∈ users.names ∧ s.keys.Registered pSock v := by
  have hkeys := h.keys sUser
  unfold onLoginAttempt Keys.Registered
  dsimp only
  by_cases huser : sUser ∈ users.names
  · rw [if_neg (not_not.2 huser)]
    by_cases hkey : (getKey pSock).sSHA1 = []
    · rw [if_pos hkey]
      exact iff_of_false (by simp) fun hv => hv.2.2.1 hkey
    · rw [if_neg hkey, hkeys]
      by_cases hsha1 : (getKey pSock).sSHA1 ∈ s.keys sUser
      · rw [if_pos hsha1]
        simp only [Answer.accepted.injEq]
        exact ⟨fun hv => ⟨hv.symm, hv ▸ huser, hkey, .inl (hv ▸ hsha1)⟩, fun hv => hv.1.symm⟩
      · rw [if_neg hsha1]
        by_cases hsha256 : (getKey pSock).sSHA256 ∈ s.keys sUser
        · rw [if_pos hsha256]
          simp only [Answer.accepted.injEq]
          exact ⟨fun hv => ⟨hv.symm, hv ▸ huser, hkey, .inr (hv ▸ hsha256)⟩, fun hv => hv.1.symm⟩
        · rw [if_neg hsha256]
          refine iff_of_false (by simp) ?_
          rintro ⟨rfl, -, -, hv | hv⟩
          · exact hsha1 hv
          · exact hsha256 hv
  · rw [if_pos huser]
    refine iff_of_false (by simp) ?_
    rintro ⟨rfl, hv, -⟩
    exact huser hv

theorem acceptKey_right {m : CSSLClientCertMod} (h : Inv users m) (Key : MultiKey) (sUser : CString) :
    (sUser ≠ [] → ∀ v, m.acceptKey users Key sUser = .accepted v ↔ v = sUser ∧ v ∈ values m.m_KeyToUser Key.sSHA256) ∧
      (sUser = [] → (∀ v, m.acceptKey users Key sUser = .accepted v → v ∈ values m.m_KeyToUser Key.sSHA256) ∧
        ((∃ v, m.acceptKey users Key sUser = .accepted v) ↔ ∃ v, v ∈ values m.m_KeyToUser Key.sSHA256)) := by
  have husers : ∀ v, v ∈ values m.m_KeyToUser Key.sSHA256 → v ∈ users.names := fun v hv =>
    h.user v Key.sSHA256 ((h.inverse v Key.sSHA256).2 hv)
  unfold acceptKey
  cases hfind : m.m_KeyToUser.find Key.sSHA256 with
  | none =>
    have hnone : values m.m_KeyToUser Key.sSHA256 = .empty := by rw [values, hfind, Option.getD_none]
    rw [hnone]
    simp
  | some ssUsers =>
    obtain ⟨hvalues, u, hu⟩ := h.key.find.1 hfind
    rw [hvalues] at husers ⊢
    dsimp only
    cases hlist : ssUsers.toList with
    | nil =>
      rw [← mem_toList, hlist] at hu
      exact absurd hu List.not_mem_nil
    | cons sFirst rest =>
      have hfirst : sFirst ∈ ssUsers := by
        rw [← mem_toList, hlist]
        exact mem_cons_self
      dsimp only
      constructor
      · intro hne v
        by_cases hmem : sUser ∈ ssUsers
        · rw [if_neg fun hbad => hbad.2 hmem, if_neg hne, if_pos (husers sUser hmem), Answer.accepted.injEq]
          exact ⟨fun hv => ⟨hv.symm, hv ▸ hmem⟩, fun hv => hv.1.symm⟩
        · rw [if_pos ⟨hne, hmem⟩]
          refine iff_of_false (by simp) ?_
          rintro ⟨rfl, hv⟩
          exact hmem hv
      · intro hempty
        rw [if_neg fun hbad => hbad.1 hempty, if_pos hempty, if_pos (husers sFirst hfirst)]
        simp only [Answer.accepted.injEq]
        exact ⟨fun v hv => hv ▸ hfirst, fun _ => ⟨sFirst, hfirst⟩, fun _ => ⟨sFirst, rfl⟩⟩

theorem saslAuthenticate_right (h : Ok users s) (pClient : Login.CClient) (sMessage : CString) (pSock : Option Peer) :
    let answer := (s.mod.onClientSASLAuthenticate users pClient (lit "EXTERNAL") sMessage pSock).2
    let sUser := (pClient.parseUser sMessage).sUser
    (sUser ≠ [] → ∀ v, answer = .accepted v ↔ v = sUser ∧ v ∈ users.names ∧ s.keys.Registered pSock v) ∧
      (sUser = [] → (∀ v, answer = .accepted v → s.keys.Registered pSock v) ∧
        ((∃ v, answer = .accepted v) ↔ ∃ v, s.keys.Registered pSock v)) := by
  unfold onClientSASLAuthenticate
  rw [if_neg (not_not.2 rfl)]
  dsimp only
  by_cases hkey : (getKey pSock).sSHA1 = []
  · rw [if_pos hkey]
    have hnot : ∀ v, ¬ s.keys.Registered pSock v := fun v hv => hv.1 hkey
    simp [hnot]
  · rw [if_neg hkey]
    dsimp only
    obtain ⟨hlower, hlower', hfit, hne⟩ := getKey_spec hkey
    obtain ⟨hinv, hvalues⟩ := migrate_all h.inv hlower hlower' hfit
    have hregistered : ∀ v, v ∈ values ((values s.mod.m_KeyToUser (getKey pSock).sSHA1).toList.foldl
        (migrateUser users (getKey pSock)) s.mod).m_KeyToUser (getKey pSock).sSHA256 ↔ s.keys.Registered pSock v := by
      intro v
      rw [← hinv.inverse, hvalues, mem_moved hne, h.keys, Keys.Registered, and_iff_right hkey]
    obtain ⟨hnamed, hany⟩ := acceptKey_right hinv (getKey pSock) (pClient.parseUser sMessage).sUser
    simp only [hregistered] at hnamed hany
    refine ⟨fun hsUser v => ?_, hany⟩
    rw [hnamed hsUser v, and_congr_right_iff]
    intro hv
    refine ⟨fun hreg => ⟨?_, hreg⟩, And.right⟩
    exact hinv.user v _ ((hinv.inverse v _).2 ((hregistered v).2 hreg))

/-! ## Steps and runs -/

theorem Good.fit (h : Good users s) {u k : CString} (hk : k ∈ values s.mod.m_PubKeys u) : Fit k := by
  rw [← h.pub, reload, onBoot, (booted_entries users _ _).keys] at hk
  rcases hk with ⟨-, sVal, -, hk⟩ | hk
  · obtain ⟨w, hw, rfl⟩ := mem_map.1 hk
    obtain ⟨hspace, hnul, hne⟩ := mem_split hw
    exact fit_asLower.2 ⟨hne rfl, hspace, hnul⟩
  · exact absurd hk (not_mem_empty k)

theorem Ok.addKey (h : Ok users s) {User sKey : CString} (huser : User ∈ users.names) (hfit : Fit sKey) :
    Ok users ⟨(s.mod.addKey User sKey).1, update s.keys User ((s.keys User).insert sKey.asLower)⟩ := by
  refine ⟨addKey_spec h.inv huser hfit, fun u => ?_⟩
  rw [values_addKey, h.keys, h.keys]
  exact (update_apply s.keys User _ u).symm

theorem Ok.delKey (h : Ok users s) (User : CString) {sKey : CString} (hlower : sKey.asLower = sKey) :
    Ok users ⟨s.mod.delKey User sKey, update s.keys User ((s.keys User).erase sKey)⟩ := by
  refine ⟨delKey_spec h.inv User sKey, fun u => ?_⟩
  rw [values_delKey, h.keys, h.keys, hlower]
  exact (update_apply s.keys User _ u).symm

/-- **What a step keeps.** -/
theorem step_ok (h : Ok users s) {ev : Event users} (hmeets : Meets s ev) : Ok users (s.step ev) := by
  cases ev with
  | add User pSock sLine =>
    have hadd : s.mod.step (.add User pSock sLine) =
        if Keys.added pSock sLine = [] then s.mod else (s.mod.addKey User (Keys.added pSock sLine)).1 := rfl
    rw [Session.step, hadd, Keys.step]
    split_ifs with hempty
    · exact h
    · exact h.addKey User.2 (hmeets hempty)
  | del User sLine =>
    rw [Session.step, CSSLClientCertMod.step, handleDelCommand_eq h.inv, h.keys, Keys.step]
    split_ifs with hid
    · exact h
    · refine h.delKey User (h.inv.fit User _ ?_).2
      rw [h.keys, ← mem_toList, getD_eq_getElem?_getD, getElem?_eq_getElem (by omega), Option.getD_some]
      exact getElem_mem _
  | webAdd User sKey => exact h.addKey User.2 hmeets
  | webDelete User sKey =>
    refine ⟨delKey_spec h.inv User (getParam sKey), fun u => ?_⟩
    rw [Session.step, CSSLClientCertMod.step, values_delKey, h.keys, h.keys]
    exact (update_apply s.keys User.1 _ u).symm
  | rehash =>
    rw [Session.step, CSSLClientCertMod.step, h.inv.onBoot_eq]
    exact h
  | reload =>
    rw [Session.step, CSSLClientCertMod.step, h.inv.reload_eq]
    exact h
  | loginAttempt sUser pSock =>
    cases pSock with
    | none => exact h
    | some pSock =>
      rw [Session.step, CSSLClientCertMod.step, onLoginAttempt, Keys.step]
      dsimp only
      by_cases huser : sUser ∈ users.names
      · rw [if_neg (not_not.2 huser)]
        by_cases hkey : (getKey pSock).sSHA1 = []
        · rw [if_pos hkey, if_neg fun hboth => hboth.2 hkey]
          exact h
        · have hboth : sUser ∈ users.names ∧ (getKey pSock).sSHA1 ≠ [] := ⟨huser, hkey⟩
          rw [if_neg hkey, if_pos hboth, moved, h.keys]
          obtain ⟨hlower, hlower', hfit, -⟩ := getKey_spec hkey
          split_ifs
          · have hmoved := (h.addKey huser hfit).delKey sUser hlower
            simp only [update_self, update_idem, hlower'] at hmoved
            exact hmoved
          · rwa [update_eq_self]
          · rwa [update_eq_self]
      · rw [if_pos huser, if_neg fun hboth => huser hboth.1]
        exact h
  | saslAuthenticate pClient sMechanism sMessage pSock =>
    rw [Session.step, CSSLClientCertMod.step, onClientSASLAuthenticate, Keys.step]
    by_cases hmechanism : sMechanism = lit "EXTERNAL"
    · rw [if_neg (not_not.2 hmechanism)]
      dsimp only
      by_cases hkey : (getKey pSock).sSHA1 = []
      · rw [if_pos hkey, if_neg fun hboth => hboth.2 hkey]
        exact h
      · have hboth : sMechanism = lit "EXTERNAL" ∧ (getKey pSock).sSHA1 ≠ [] := ⟨hmechanism, hkey⟩
        rw [if_neg hkey, if_pos hboth]
        obtain ⟨hlower, hlower', hfit, -⟩ := getKey_spec hkey
        obtain ⟨hinv, hvalues⟩ := migrate_all h.inv hlower hlower' hfit
        exact ⟨hinv, fun u => by rw [hvalues, h.keys]⟩
    · rw [if_pos hmechanism, if_neg fun hboth => hmechanism hboth.1]
      exact h

theorem answer_right (h : Ok users s) (ev : Event users) : Right s ev := by
  cases ev with
  | loginAttempt sUser pSock =>
    cases pSock with
    | none => trivial
    | some pSock => exact fun v => loginAttempt_right h sUser pSock v
  | saslAuthenticate pClient sMechanism sMessage pSock =>
    intro hmechanism
    have hright := saslAuthenticate_right h pClient sMessage pSock
    rw [← hmechanism] at hright
    exact hright
  | _ => trivial

theorem step_exact {ev : Event users} (hgood : Good users (s.step ev)) : Meets s ev := by
  have hadded : ∀ User sKey, (s.step ev).mod = (s.mod.addKey User sKey).1 → Fit sKey := by
    intro User sKey hmod
    refine fit_asLower.1 (hgood.fit (u := User) ?_)
    rw [hmod, values_addKey, if_pos rfl]
    exact (mem_insert _ _ _).2 (.inl rfl)
  cases ev with
  | add User pSock sLine =>
    intro hne
    exact hadded User _ (if_neg hne)
  | webAdd User sKey => exact hadded User _ rfl
  | _ => trivial

theorem ok_start (users : Users) : Ok users .start :=
  ⟨⟨.empty, .empty, .empty, fun _ k hk => absurd hk (not_mem_empty k),
    fun _ k hk => absurd hk (not_mem_empty k), rfl⟩, fun _ => rfl⟩

/-- **The tables and the logins are right** in a whole run, exactly if the keys that are added are words. -/
theorem certauth_iff (users : Users) (evs : List (Event users)) :
    (Runs.States Session.step (Good users) evs .start ∧ Runs.Steps Session.step Right evs .start) ↔
      Runs.Steps Session.step Meets evs .start := by
  have htrue : Runs.Steps Session.step (fun (_ : Session) (_ : Event users) => True) evs .start :=
    Runs.steps_iff.2 fun _ _ _ _ => trivial
  exact Runs.keeps_iff (fun s h => h.good) (fun s ev h _ hmeets => ⟨step_ok h hmeets, answer_right h ev⟩)
    (fun s ev _ _ hgood _ => step_exact hgood) evs (ok_start users) htrue

/-- **An empty key** from the form of the web page is added, and gone after a reload. -/
theorem empty_key :
    let users : Users := ⟨.ofList [lit "alice"], by decide⟩
    let s := Session.start.step (.webAdd ⟨lit "alice", by decide⟩ [] : Event users)
    values s.mod.m_PubKeys (lit "alice") = .ofList [[]] ∧
      values (s.mod.reload users).m_PubKeys (lit "alice") = .empty ∧ ¬ Good users s := by
  intro users s
  have hadded : values s.mod.m_PubKeys (lit "alice") = .ofList [[]] := by decide
  have hgone : values (s.mod.reload users).m_PubKeys (lit "alice") = .empty := by
    rw [reload, (Registry.registry_round_trip _).2]
    decide
  refine ⟨hadded, hgone, fun hgood => ?_⟩
  rw [hgood.pub, hadded] at hgone
  exact absurd hgone (by decide)

end ZNC.CertAuth
