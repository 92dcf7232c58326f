/-
Web sessions: `CSessionManager`, `CWebSession`, `CWebSock::GetSession` and `CWebSessionMap` of `src/WebModules.cpp`, `TCacheMap` of
`include/znc/Utils.h`, and `CZNC::HandleUserDeletion`.

A session is owned by the cache and by the sockets that use it, and it is destroyed with its last owner. Its destructor takes it
out of `m_mIPSessions`, the index by address, so a session that has left the cache stays there while a socket holds it.

Results:
- `Inv`, `step_inv`: the index has one entry for every session, under its address, and the sessions are those that have an owner;
- `card_cachedAt_discard`, `discard_evicts`: what leaves the cache when a session is discarded;
- `sessions_bounded`: the cap per address over every run in which the session to be discarded is still in the cache.
-/
import ZNC.CString

namespace ZNC

open List OrdMap Option

namespace Web

/-! ## Model -/

structure CWebSession where
  sId : CString
  sIP : CString
  pUser : Option ℕ
  tmLastActive : ℤ
deriving DecidableEq

structure CWebSock where
  sRemoteIP : CString
  spSession : Option ℕ
deriving DecidableEq

/-- The cache maps an id to its time of expiry and a session. The index is a multimap, whose entries of one address stand in the
order they came. Sessions, sockets and users that exist are numbered. -/
structure CSessionManager where
  mspSessions : OrdMap CString (ℕ × ℕ)
  mIPSessions : List (CString × ℕ)
  sessions : OrdMap ℕ CWebSession
  uNextSession : ℕ
  socks : OrdMap ℕ CWebSock
  users : List ℕ
  uNextUser : ℕ
deriving DecidableEq

/-- what a call of `GetSession` reads: the cookie, the clock at each use, and the ids that are generated -/
structure Readings where
  sCookieSessionId : CString
  uGetItem : ℕ
  uHasItem : ℕ
  uAddItem : ℕ
  tmActive : ℤ
  vsSessionIDs : List CString

namespace CSessionManager

def init : CSessionManager := ⟨.empty, [], .empty, 0, .empty, [], 0⟩

/-- sessions are valid for a day -/
def uTTL : ℕ := 24 * 60 * 60 * 1000

def uiMaxSessions : ℕ := 5

def isCached (s : CSessionManager) (k : ℕ) : Bool := s.mspSessions.entries.any fun e => e.2.2 = k

/-- a socket holds the session -/
def isHeld (s : CSessionManager) (k : ℕ) : Bool := s.socks.entries.any fun e => e.2.spSession = some k

/-- `CWebSession::~CWebSession` -/
def destroy (s : CSessionManager) (k : ℕ) : CSessionManager :=
  match s.sessions.find k with
  | some session =>
    { s with
      mIPSessions := s.mIPSessions.filter fun e => !(e.1 = session.sIP && e.2 = k)
      sessions := s.sessions.erase k }
  | none => s

/-- a shared pointer to the session is gone -/
def release (s : CSessionManager) (k : ℕ) : CSessionManager := if s.isCached k || s.isHeld k then s else s.destroy k

def remItem (s : CSessionManager) (sId : CString) : CSessionManager :=
  match s.mspSessions.find sId with
  | some e => { s with mspSessions := s.mspSessions.erase sId }.release e.2
  | none => s

def addItem (s : CSessionManager) (sId : CString) (k uNow : ℕ) : CSessionManager :=
  let t := { s with mspSessions := s.mspSessions.insert sId (uNow + uTTL, k) }
  match s.mspSessions.find sId with
  | some e => t.release e.2
  | none => t

def cleanup (s : CSessionManager) (uNow : ℕ) : CSessionManager :=
  (s.mspSessions.entries.filter fun e => e.2.1 < uNow).foldl (fun s e => s.remItem e.1) s

/-- the first smallest element -/
def minElement (f : ℕ → ℤ) : List ℕ → Option ℕ
  | [] => none
  | k :: ks => some (ks.foldl (fun m k => if f k < f m then k else m) k)

def lastActive (s : CSessionManager) (k : ℕ) : ℤ := (s.sessions.find k).elim 0 CWebSession.tmLastActive

/-- the entries of the index for an address -/
def indexed (s : CSessionManager) (sIP : CString) : List ℕ := (s.mIPSessions.filter fun e => e.1 = sIP).map Prod.snd

/-- the session that is discarded -/
def victim (s : CSessionManager) (sIP : CString) : Option ℕ := minElement s.lastActive (s.indexed sIP)

/-- `GetSession`: room for a new session is made -/
def discard (s : CSessionManager) (sIP : CString) : CSessionManager :=
  if uiMaxSessions < (s.indexed sIP).length then
    match (s.victim sIP).bind s.sessions.find with
    | some session => s.remItem session.sId
    | none => s
  else s

/-- `GetSession`: the session of the cookie -/
def reuse (s : CSessionManager) (uSock : ℕ) (sock : CWebSock) (k : ℕ) (session : CWebSession)
    (r : Readings) : CSessionManager :=
  let s := s.addItem session.sId k r.uAddItem
  { s with
    sessions := s.sessions.insert k { session with tmLastActive := r.tmActive }
    socks := s.socks.insert uSock { sock with spSession := some k } }

/-- `GetSession`: a new session -/
def create (s : CSessionManager) (uSock : ℕ) (sock : CWebSock) (sSessionID : CString)
    (r : Readings) : CSessionManager :=
  let k := s.uNextSession
  { { s with
      mIPSessions := s.mIPSessions ++ [(sock.sRemoteIP, k)]
      sessions := s.sessions.insert k ⟨sSessionID, sock.sRemoteIP, none, r.tmActive⟩
      uNextSession := k + 1 }.addItem sSessionID k r.uAddItem with
    socks := s.socks.insert uSock { sock with spSession := some k } }

/-- `CWebSock::GetSession`: the session; nothing while all the ids that are generated are in use -/
def getSession (s : CSessionManager) (uSock : ℕ) (sock : CWebSock) (r : Readings) : Option (CSessionManager × ℕ) :=
  match sock.spSession with
  | some k => some (s, k)
  | none =>
    let s := s.cleanup r.uGetItem
    match s.mspSessions.find r.sCookieSessionId with
    | some e => (s.sessions.find e.2).map fun session => (s.reuse uSock sock e.2 session r, e.2)
    | none =>
      let s := (s.discard sock.sRemoteIP).cleanup r.uHasItem
      (r.vsSessionIDs.find? fun sId => (s.mspSessions.find sId).isNone).map fun sId =>
        (s.create uSock sock sId r, s.uNextSession)

/-- `session->SetUser(pUser)` -/
def setUser (s : CSessionManager) (k : ℕ) (pUser : Option ℕ) : CSessionManager :=
  match s.sessions.find k with
  | some session => { s with sessions := s.sessions.insert k { session with pUser := pUser } }
  | none => s

/-- `session->GetUser()` -/
def getUser (s : CSessionManager) (k : ℕ) : Option ℕ := (s.sessions.find k).bind CWebSession.pUser

/-- the members of a socket are destroyed -/
def closeSock (s : CSessionManager) (uSock k : ℕ) : CSessionManager := { s with socks := s.socks.erase uSock }.release k

def finishUserSessions (s : CSessionManager) (user : ℕ) : CSessionManager :=
  (s.mspSessions.entries.filter fun e => s.getUser e.2.2 = some user).foldl (fun s e => s.remItem e.1) s

/-- `CZNC::HandleUserDeletion`: the users to be deleted, each with what the modules answer in `OnDeleteUser` -/
def handleUserDeletion (s : CSessionManager) (msDelUsers : List (ℕ × Bool)) : CSessionManager :=
  msDelUsers.foldl
    (fun s d => if d.2 then s else { s with users := s.users.filter (· ≠ d.1) }.finishUserSessions d.1) s

end CSessionManager

/-- what happens to the web server -/
inductive Op where
  | AddUser
  | OpenSock (uSock : ℕ) (sRemoteIP : CString)
  | Request (uSock : ℕ) (r : Readings)
  | AcceptedLogin (uSock : ℕ) (r : Readings) (User : ℕ)
  | RefusedLogin (uSock : ℕ) (r : Readings)
  | Logout (uSock : ℕ) (r : Readings)
  | CloseSock (uSock : ℕ) (r : Readings)
  | Cleanup (uNow : ℕ)
  | HandleUserDeletion (msDelUsers : List (ℕ × Bool))

/-- a step, with the users that are dereferenced in it -/
structure Step where
  before : CSessionManager
  op : Op
  users : List ℕ
  after : CSessionManager

namespace CSessionManager

/-- What is done once the session is there. A session that is found by the cookie is logged with the name of its user. -/
def useSession (s : CSessionManager) (uSock : ℕ) (r : Readings) (f : CSessionManager → ℕ → CSessionManager × List ℕ) :
    Option (CSessionManager × List ℕ) :=
  (s.socks.find uSock).bind fun sock => (s.getSession uSock sock r).map fun t =>
    ((f t.1 t.2).1, (if sock.spSession.isNone then (t.1.getUser t.2).toList else []) ++ (f t.1 t.2).2)

/-- The state after a step, and the users that are dereferenced. A login is accepted for a user that exists. -/
def apply (s : CSessionManager) : Op → Option (CSessionManager × List ℕ)
  | .AddUser => some ({ s with users := s.uNextUser :: s.users, uNextUser := s.uNextUser + 1 }, [])
  | .OpenSock uSock sRemoteIP =>
    if (s.socks.find uSock).isSome then none else some ({ s with socks := s.socks.insert uSock ⟨sRemoteIP, none⟩ }, [])
  | .Request uSock r => s.useSession uSock r fun s k => (s, (s.getUser k).toList)
  | .AcceptedLogin uSock r User =>
    if User ∈ s.users then s.useSession uSock r fun s k => (s.setUser k (some User), [User]) else none
  | .RefusedLogin uSock r => s.useSession uSock r fun s k => (s.setUser k none, [])
  | .Logout uSock r => s.useSession uSock r fun s k => (s.setUser k none, [])
  | .CloseSock uSock r => s.useSession uSock r fun s k => (s.closeSock uSock k, (s.getUser k).toList)
  | .Cleanup uNow => some (s.cleanup uNow, [])
  | .HandleUserDeletion msDelUsers => some (s.handleUserDeletion msDelUsers, [])

def steps (s : CSessionManager) : List Op → Option (List Step)
  | [] => some []
  | op :: ops => (s.apply op).bind fun t => (t.1.steps ops).map (⟨s, op, t.2, t.1⟩ :: ·)

end CSessionManager

/-! ## Invariant -/

namespace CSessionManager

/-- Every session is cached, held by a socket or, while its last owner goes, one of `loose`. It is cached under its own id only, and
it has one entry in the index, under its address. -/
structure Inv (loose : ℕ → Prop) (s : CSessionManager) : Prop where
  keyed : ∀ sId e, s.mspSessions.find sId = some e → ∃ session, s.sessions.find e.2 = some session ∧ session.sId = sId
  held : ∀ i sock k, s.socks.find i = some sock → sock.spSession = some k → ∃ session, s.sessions.find k = some session
  owned : ∀ k session, s.sessions.find k = some session → s.isCached k = true ∨ s.isHeld k = true ∨ loose k
  index : ∀ sIP k, s.mIPSessions.count (sIP, k) = if (s.sessions.find k).map CWebSession.sIP = some sIP then 1 else 0
  fresh : ∀ k session, s.sessions.find k = some session → k < s.uNextSession

/-- the invariant between two steps -/
abbrev Valid (s : CSessionManager) : Prop := s.Inv fun _ => False

variable {s t : CSessionManager}

theorem isCached_iff {k : ℕ} : s.isCached k = true ↔ ∃ sId u, s.mspSessions.find sId = some (u, k) := by
  simp only [isCached, List.any_eq_true, decide_eq_true_eq]
  constructor
  · rintro ⟨⟨sId, u, k'⟩, he, rfl⟩
    exact ⟨sId, u, (mem_entries_iff ..).1 he⟩
  · rintro ⟨sId, u, he⟩
    exact ⟨(sId, u, k), (mem_entries_iff ..).2 he, rfl⟩

theorem isHeld_iff {k : ℕ} : s.isHeld k = true ↔ ∃ i sock, s.socks.find i = some sock ∧ sock.spSession = some k := by
  simp only [isHeld, List.any_eq_true, decide_eq_true_eq]
  constructor
  · rintro ⟨⟨i, sock⟩, he, hk⟩
    exact ⟨i, sock, (mem_entries_iff ..).1 he, hk⟩
  · rintro ⟨i, sock, he, hk⟩
    exact ⟨(i, sock), (mem_entries_iff ..).2 he, hk⟩

theorem init_valid : init.Valid where
  keyed := by simp [init]
  held := by simp [init]
  owned := by simp [init]
  index := by simp [init]
  fresh := by simp [init]

/-- sessions and cache entries were taken out, and nothing else has changed -/
structure Less (s t : CSessionManager) : Prop where
  sessions : ∀ k session, t.sessions.find k = some session → s.sessions.find k = some session
  cache : ∀ sId e, t.mspSessions.find sId = some e → s.mspSessions.find sId = some e
  socks : t.socks = s.socks
  users : t.users = s.users
  next : t.uNextSession = s.uNextSession
  nextUser : t.uNextUser = s.uNextUser

theorem Less.refl (s : CSessionManager) : Less s s := ⟨fun _ _ h => h, fun _ _ h => h, rfl, rfl, rfl, rfl⟩

theorem Less.trans {u : CSessionManager} (h : Less s t) (h' : Less t u) : Less s u where
  sessions k session hk := h.sessions k session (h'.sessions k session hk)
  cache sId e he := h.cache sId e (h'.cache sId e he)
  socks := h'.socks.trans h.socks
  users := h'.users.trans h.users
  next := h'.next.trans h.next
  nextUser := h'.nextUser.trans h.nextUser

theorem release_cases (s : CSessionManager) (k : ℕ) :
    (s.isCached k = true ∨ s.isHeld k = true) ∧ s.release k = s ∨
      s.isCached k = false ∧ s.isHeld k = false ∧ s.release k = s.destroy k := by
  unfold release
  cases hc : s.isCached k with
  | true => exact .inl ⟨.inl rfl, rfl⟩
  | false =>
    cases hh : s.isHeld k with
    | true => exact .inl ⟨.inr rfl, rfl⟩
    | false => exact .inr ⟨rfl, rfl, rfl⟩

theorem destroy_less (s : CSessionManager) (k : ℕ) : Less s (s.destroy k) := by
  unfold destroy
  cases s.sessions.find k with
  | none => exact .refl s
  | some session =>
    refine ⟨fun k' session' hk' => ?_, fun _ _ h => h, rfl, rfl, rfl, rfl⟩
    simp only [find_erase] at hk'
    split_ifs at hk'
    exact hk'

theorem release_less (s : CSessionManager) (k : ℕ) : Less s (s.release k) := by
  rcases release_cases s k with ⟨-, h⟩ | ⟨-, -, h⟩
  · rw [h]
    exact .refl s
  · rw [h]
    exact destroy_less s k

@[simp] theorem release_cache (s : CSessionManager) (k : ℕ) : (s.release k).mspSessions = s.mspSessions := by
  unfold release destroy
  split_ifs
  · rfl
  · cases s.sessions.find k <;> rfl

/-- **The last owner.** Once a shared pointer is gone, only the sessions with an owner are left. -/
theorem Inv.release {k : ℕ} (h : s.Inv (· = k)) : (s.release k).Valid := by
  rcases release_cases s k with ⟨hown, hr⟩ | ⟨hc, hh, hr⟩
  · rw [hr]
    refine { h with owned := fun k' session hk' => ?_ }
    rcases h.owned k' session hk' with ho | ho | rfl
    · exact .inl ho
    · exact .inr (.inl ho)
    · exact hown.imp_right .inl
  · rw [hr]
    have hcached : ∀ sId e, s.mspSessions.find sId = some e → e.2 ≠ k := by
      rintro sId ⟨u, k'⟩ he rfl
      rw [isCached_iff.2 ⟨sId, u, he⟩] at hc
      exact absurd hc (by decide)
    have hheld : ∀ i sock, s.socks.find i = some sock → sock.spSession ≠ some k := by
      intro i sock hi hk
      rw [isHeld_iff.2 ⟨i, sock, hi, hk⟩] at hh
      exact absurd hh (by decide)
    unfold destroy
    cases hk : s.sessions.find k with
    | none =>
      refine { h with owned := fun k' session hk' => ?_ }
      rcases h.owned k' session hk' with ho | ho | rfl
      · exact .inl ho
      · exact .inr (.inl ho)
      · exact absurd (hk.symm.trans hk') (by simp)
    | some session =>
      refine ⟨fun sId e he => ?_, fun i sock k' hi hk' => ?_, fun k' session' hk' => ?_, fun sIP k' => ?_,
        fun k' session' hk' => ?_⟩
      · obtain ⟨session', hs, hid⟩ := h.keyed sId e he
        exact ⟨session', by simpa only [find_erase, if_neg (hcached sId e he)] using hs, hid⟩
      · obtain ⟨session', hs⟩ := h.held i sock k' hi hk'
        have hne : k' ≠ k := fun he => hheld i sock hi (he ▸ hk')
        exact ⟨session', by simpa only [find_erase, if_neg hne] using hs⟩
      · simp only [find_erase] at hk'
        split_ifs at hk' with hne
        rcases h.owned k' session' hk' with ho | ho | ho
        · exact .inl ho
        · exact .inr (.inl ho)
        · exact absurd ho hne
      · -- the entry of the session, and no other one, is taken out of the index
        simp only [find_erase]
        by_cases hne : k' = k
        · subst hne
          rw [if_pos rfl, map_none, if_neg (by simp), count_eq_zero]
          intro hm
          obtain ⟨hm, hkeep⟩ := mem_filter.1 hm
          have hpos := count_pos_iff.2 hm
          rw [h.index, hk] at hpos
          have hip : session.sIP = sIP := by
            by_contra hip
            simp [hip] at hpos
          simp [hip] at hkeep
        · rw [if_neg hne, ← h.index sIP k', count_filter (by simp [hne])]
      · simp only [find_erase] at hk'
        split_ifs at hk'
        exact h.fresh k' session' hk'

theorem remItem_less (s : CSessionManager) (sId : CString) : Less s (s.remItem sId) := by
  unfold remItem
  cases s.mspSessions.find sId with
  | none => exact .refl s
  | some e =>
    have herase : Less s { s with mspSessions := s.mspSessions.erase sId } := by
      refine ⟨fun _ _ h => h, fun sId' e' he' => ?_, rfl, rfl, rfl, rfl⟩
      simp only [find_erase] at he'
      split_ifs at he'
      exact he'
    exact herase.trans (release_less _ e.2)

theorem remItem_cache (s : CSessionManager) (sId sId' : CString) :
    (s.remItem sId).mspSessions.find sId' = if sId' = sId then none else s.mspSessions.find sId' := by
  unfold remItem
  cases he : s.mspSessions.find sId with
  | none =>
    split_ifs with hs
    · rw [hs, he]
    · rfl
  | some e =>
    simp only [release_cache, find_erase]
    split_ifs <;> rfl

theorem Inv.remItem (h : s.Valid) (sId : CString) : (s.remItem sId).Valid := by
  unfold CSessionManager.remItem
  cases he : s.mspSessions.find sId with
  | none => exact h
  | some e =>
    apply Inv.release
    refine ⟨fun sId' e' he' => ?_, h.held, fun k session hk => ?_, h.index, h.fresh⟩
    · simp only [find_erase] at he'
      split_ifs at he'
      exact h.keyed sId' e' he'
    · rcases h.owned k session hk with ho | ho | ho
      · obtain ⟨sId', u, hc⟩ := isCached_iff.1 ho
        by_cases hs : sId' = sId
        · subst hs
          exact .inr (.inr (congrArg Prod.snd (Option.some.inj (hc.symm.trans he))))
        · exact .inl (isCached_iff.2 ⟨sId', u, by simpa only [find_erase, if_neg hs] using hc⟩)
      · exact .inr (.inl ho)
      · exact absurd ho not_false

theorem remItems_spec (l : List (CString × ℕ × ℕ)) :
    ∀ {s : CSessionManager}, Less s (l.foldl (fun s e => s.remItem e.1) s) ∧
      (s.Valid → (l.foldl (fun s e => s.remItem e.1) s).Valid) ∧
      ∀ sId, (l.foldl (fun s e => s.remItem e.1) s).mspSessions.find sId =
        if sId ∈ l.map Prod.fst then none else s.mspSessions.find sId := by
  induction l with
  | nil => exact fun {s} => ⟨.refl s, id, fun sId => by simp⟩
  | cons e l ih =>
    intro s
    obtain ⟨hless, hvalid, hfind⟩ := ih (s := s.remItem e.1)
    refine ⟨(remItem_less s e.1).trans hless, fun h => hvalid (h.remItem e.1), fun sId => ?_⟩
    rw [foldl_cons, hfind, remItem_cache]
    by_cases h1 : sId = e.1 <;> by_cases h2 : sId ∈ l.map Prod.fst <;> simp [h1, h2]

theorem cleanup_less (s : CSessionManager) (uNow : ℕ) : Less s (s.cleanup uNow) := (remItems_spec _).1

theorem Inv.cleanup (h : s.Valid) (uNow : ℕ) : (s.cleanup uNow).Valid := (remItems_spec _).2.1 h

/-! ## GetSession -/

theorem discard_cases (s : CSessionManager) (sIP : CString) :
    s.discard sIP = s ∨ uiMaxSessions < (s.indexed sIP).length ∧
      ∃ v session, s.victim sIP = some v ∧ s.sessions.find v = some session ∧
        s.discard sIP = s.remItem session.sId := by
  unfold discard
  split_ifs with hlen
  · cases hv : s.victim sIP with
    | none => exact .inl rfl
    | some v =>
      cases hs : s.sessions.find v with
      | none => exact .inl (by simp only [bind_some, hs])
      | some session => exact .inr ⟨hlen, v, session, rfl, hs, by simp only [bind_some, hs]⟩
  · exact .inl rfl

theorem discard_less (s : CSessionManager) (sIP : CString) : Less s (s.discard sIP) := by
  rcases discard_cases s sIP with h | ⟨-, v, session, -, -, h⟩
  · rw [h]
    exact .refl s
  · rw [h]
    exact remItem_less s _

theorem Inv.discard (h : s.Valid) (sIP : CString) : (s.discard sIP).Valid := by
  rcases discard_cases s sIP with hd | ⟨-, v, session, -, -, hd⟩
  · rw [hd]
    exact h
  · rw [hd]
    exact h.remItem _

variable {sock : CWebSock} {session : CWebSession} {sId : CString} {r : Readings}

theorem reuse_eq {uSock k : ℕ} {e : ℕ × ℕ} (he : s.mspSessions.find session.sId = some e) (hk : e.2 = k) :
    s.reuse uSock sock k session r =
      { s with
        mspSessions := s.mspSessions.insert session.sId (r.uAddItem + uTTL, k)
        sessions := s.sessions.insert k { session with tmLastActive := r.tmActive }
        socks := s.socks.insert uSock { sock with spSession := some k } } := by
  have hcached : ({ s with mspSessions := s.mspSessions.insert session.sId (r.uAddItem + uTTL,
                             k) } : CSessionManager).isCached k = true :=
    isCached_iff.2 ⟨session.sId, _, by rw [find_insert, if_pos rfl]⟩
  simp only [reuse, addItem, he, release, hk, hcached, Bool.true_or, if_true]

theorem create_eq {uSock : ℕ} (hnone : s.mspSessions.find sId = none) :
    s.create uSock sock sId r =
      { s with
        mspSessions := s.mspSessions.insert sId (r.uAddItem + uTTL, s.uNextSession)
        mIPSessions := s.mIPSessions ++ [(sock.sRemoteIP, s.uNextSession)]
        sessions := s.sessions.insert s.uNextSession ⟨sId, sock.sRemoteIP, none, r.tmActive⟩
        uNextSession := s.uNextSession + 1
        socks := s.socks.insert uSock { sock with spSession := some s.uNextSession } } := by
  simp only [create, addItem, hnone]

theorem getSession_cases {uSock k : ℕ} (h : s.getSession uSock sock r = some (t, k)) :
    sock.spSession = some k ∧ t = s ∨
    sock.spSession = none ∧ ∃ c, c = s.cleanup r.uGetItem ∧
      ((∃ u session, c.mspSessions.find r.sCookieSessionId = some (u, k) ∧ c.sessions.find k = some session ∧
          t = c.reuse uSock sock k session r) ∨
        c.mspSessions.find r.sCookieSessionId = none ∧ ∃ d sId, d = (c.discard sock.sRemoteIP).cleanup r.uHasItem ∧
          d.mspSessions.find sId = none ∧ t = d.create uSock sock sId r ∧ k = d.uNextSession) := by
  unfold getSession at h
  cases hsock : sock.spSession with
  | some k' =>
    rw [hsock] at h
    cases h
    exact .inl ⟨rfl, rfl⟩
  | none =>
    rw [hsock] at h
    refine .inr ⟨rfl, _, rfl, ?_⟩
    cases hfind : (s.cleanup r.uGetItem).mspSessions.find r.sCookieSessionId with
    | some e =>
      simp only [hfind, map_eq_some_iff, Prod.mk.injEq] at h
      obtain ⟨session, hs, rfl, rfl⟩ := h
      exact .inl ⟨e.1, session, rfl, hs, rfl⟩
    | none =>
      simp only [hfind, map_eq_some_iff, Prod.mk.injEq] at h
      obtain ⟨sId, hid, rfl, rfl⟩ := h
      exact .inr ⟨rfl, _, sId, rfl, by simpa using find?_some hid, rfl, rfl⟩

theorem isHeld_insert {i k : ℕ} {sock' : CWebSock} (hi : s.socks.find i = some sock) (hnone : sock.spSession = none)
    (h : s.isHeld k = true) {u : CSessionManager} (hu : u.socks = s.socks.insert i sock') : u.isHeld k = true := by
  obtain ⟨j, c, hj, hc⟩ := isHeld_iff.1 h
  have hne : j ≠ i := by
    rintro rfl
    rw [Option.some.inj (hi.symm.trans hj)] at hnone
    exact absurd (hnone.symm.trans hc) (by simp)
  exact isHeld_iff.2 ⟨j, c, by rw [hu, find_insert, if_neg hne, hj], hc⟩

theorem Inv.reuse (h : s.Valid) {uSock k : ℕ} {u : ℕ} (hsock : s.socks.find uSock = some sock)
    (hnone : sock.spSession = none) (he : s.mspSessions.find sId = some (u, k)) (hs : s.sessions.find k = some session) :
    session.sId = sId ∧ (s.reuse uSock sock k session r).Valid := by
  obtain ⟨session', hs', hid⟩ := h.keyed sId _ he
  obtain rfl : session = session' := Option.some.inj (hs.symm.trans hs')
  refine ⟨hid, ?_⟩
  rw [← hid] at he
  rw [reuse_eq he rfl]
  refine ⟨fun sId' e' he' => ?_, fun i c k' hi hk' => ?_, fun k' w hk' => ?_, fun sIP k' => ?_, fun k' w hk' => ?_⟩
  · simp only [find_insert] at he' ⊢
    split_ifs at he' with hsid
    · cases he'
      exact ⟨_, if_pos rfl, hsid.symm⟩
    · obtain ⟨w, hw, hwid⟩ := h.keyed sId' e' he'
      by_cases hk : e'.2 = k
      · rw [hk, hs] at hw
        cases hw
        exact ⟨_, if_pos hk, hwid⟩
      · exact ⟨w, by rw [if_neg hk, hw], hwid⟩
  · simp only [find_insert] at hi ⊢
    split_ifs at hi with hik
    · cases hi
      obtain rfl : k = k' := Option.some.inj hk'
      exact ⟨_, if_pos rfl⟩
    · obtain ⟨w, hw⟩ := h.held i c k' hi hk'
      split_ifs
      · exact ⟨_, rfl⟩
      · exact ⟨w, hw⟩
  · by_cases hk : k' = k
    · subst hk
      exact .inl (isCached_iff.2 ⟨session.sId, _, by rw [find_insert, if_pos rfl]⟩)
    · simp only [find_insert, if_neg hk] at hk'
      rcases h.owned k' w hk' with ho | ho | ho
      · obtain ⟨sId', u', hc⟩ := isCached_iff.1 ho
        have hne : sId' ≠ session.sId := by
          rintro rfl
          exact hk (congrArg Prod.snd (Option.some.inj (hc.symm.trans he)))
        exact .inl (isCached_iff.2 ⟨sId', u', by rw [find_insert, if_neg hne, hc]⟩)
      · exact .inr (.inl (isHeld_insert hsock hnone ho rfl))
      · exact absurd ho not_false
  · simp only [find_insert, h.index]
    by_cases hk : k' = k
    · rw [if_pos hk, hk, hs]
      rfl
    · rw [if_neg hk]
  · simp only [find_insert] at hk'
    split_ifs at hk' with hk
    · exact hk ▸ h.fresh k session hs
    · exact h.fresh k' w hk'

theorem Inv.create (h : s.Valid) {uSock : ℕ} (r : Readings) (hsock : s.socks.find uSock = some sock)
    (hnone : sock.spSession = none) (hid : s.mspSessions.find sId = none) :
    (s.create uSock sock sId r).Valid := by
  have hnew : s.sessions.find s.uNextSession = none := by
    by_contra hne
    obtain ⟨w, hw⟩ := ne_none_iff_exists'.1 hne
    exact lt_irrefl _ (h.fresh _ w hw)
  have hother : ∀ {k w}, s.sessions.find k = some w → k ≠ s.uNextSession := by
    rintro k w hk rfl
    exact absurd (hnew.symm.trans hk) (by simp)
  rw [create_eq hid]
  refine ⟨fun sId' e' he' => ?_, fun i c k hi hk => ?_, fun k w hk => ?_, fun sIP k => ?_, fun k w hk => ?_⟩
  · simp only [find_insert] at he' ⊢
    split_ifs at he' with hsid
    · cases he'
      exact ⟨_, if_pos rfl, hsid.symm⟩
    · obtain ⟨w, hw, hwid⟩ := h.keyed sId' e' he'
      exact ⟨w, by rw [if_neg (hother hw), hw], hwid⟩
  · simp only [find_insert] at hi ⊢
    split_ifs at hi with hik
    · cases hi
      obtain rfl : s.uNextSession = k := Option.some.inj hk
      exact ⟨_, if_pos rfl⟩
    · obtain ⟨w, hw⟩ := h.held i c k hi hk
      exact ⟨w, by rw [if_neg (hother hw), hw]⟩
  · by_cases hne : k = s.uNextSession
    · subst hne
      exact .inl (isCached_iff.2 ⟨sId, _, by rw [find_insert, if_pos rfl]⟩)
    · simp only [find_insert, if_neg hne] at hk
      rcases h.owned k w hk with ho | ho | ho
      · obtain ⟨sId', u', hc⟩ := isCached_iff.1 ho
        have hne' : sId' ≠ sId := by
          rintro rfl
          exact absurd (hid.symm.trans hc) (by simp)
        exact .inl (isCached_iff.2 ⟨sId', u', by rw [find_insert, if_neg hne', hc]⟩)
      · exact .inr (.inl (isHeld_insert hsock hnone ho rfl))
      · exact absurd ho not_false
  · simp only [find_insert, count_append, h.index]
    by_cases hk : k = s.uNextSession
    · subst hk
      rw [hnew, if_pos rfl]
      by_cases hip : sock.sRemoteIP = sIP <;> simp [hip]
    · have hcount : List.count (sIP, k) [(sock.sRemoteIP, s.uNextSession)] = 0 :=
        count_eq_zero.2 fun hm => hk (congrArg Prod.snd (mem_singleton.1 hm))
      rw [if_neg hk, hcount, Nat.add_zero]
  · simp only [find_insert] at hk
    split_ifs at hk with hne
    · exact hne ▸ Nat.lt_succ_self _
    · exact (h.fresh k w hk).trans (Nat.lt_succ_self _)

/-- **`GetSession` keeps the invariant,** and the socket then holds the session. -/
theorem getSession_valid (h : s.Valid) {uSock k : ℕ} (hsock : s.socks.find uSock = some sock)
    (hget : s.getSession uSock sock r = some (t, k)) :
    t.Valid ∧ ∃ sock', t.socks.find uSock = some sock' ∧ sock'.spSession = some k := by
  rcases getSession_cases hget with ⟨hk, rfl⟩ | ⟨hnone, c, hc, hcase⟩
  · exact ⟨h, sock, hsock, hk⟩
  · have hvalid : c.Valid := hc ▸ h.cleanup r.uGetItem
    have hsock' : c.socks.find uSock = some sock := by rw [hc, (cleanup_less s _).socks, hsock]
    rcases hcase with ⟨u, session, he, hs, rfl⟩ | ⟨-, d, sId, hd, hid, rfl, rfl⟩
    · obtain ⟨hsid, hreuse⟩ := hvalid.reuse (r := r) hsock' hnone he hs
      refine ⟨hreuse, { sock with spSession := some k }, ?_, rfl⟩
      rw [← hsid] at he
      rw [reuse_eq he rfl]
      simp only [find_insert, if_true]
    · have hvalid' : d.Valid := hd ▸ (hvalid.discard _).cleanup _
      have hsock'' : d.socks.find uSock = some sock := by
        rw [hd, (cleanup_less _ _).socks, (discard_less _ _).socks, hsock']
      refine ⟨hvalid'.create r hsock'' hnone hid, { sock with spSession := some d.uNextSession }, ?_, rfl⟩
      rw [create_eq hid]
      simp only [find_insert, if_true]

/-! ## Steps -/

theorem setUser_find (s : CSessionManager) (k k' : ℕ) (pUser : Option ℕ) :
    (s.setUser k pUser).sessions.find k' =
      if k' = k then (s.sessions.find k).map fun session =>
        { session with pUser := pUser } else s.sessions.find k' := by
  unfold setUser
  cases hs : s.sessions.find k with
  | none =>
    split_ifs with hk
    · rw [hk, hs]
      rfl
    · rfl
  | some session =>
    simp only [find_insert, map_some]

theorem Inv.setUser (h : s.Valid) (k : ℕ) (pUser : Option ℕ) : (s.setUser k pUser).Valid := by
  have hfind := fun k' => s.setUser_find k k' pUser
  unfold CSessionManager.setUser at hfind ⊢
  cases hs : s.sessions.find k with
  | none => exact h
  | some session =>
    simp only [hs] at hfind
    refine ⟨fun sId e he => ?_, fun i c k' hi hk' => ?_, fun k' w hk' => ?_, fun sIP k' => ?_, fun k' w hk' => ?_⟩
    · obtain ⟨w, hw, hid⟩ := h.keyed sId e he
      rw [hfind e.2]
      by_cases hk : e.2 = k
      · rw [hk, hs] at hw
        cases hw
        exact ⟨_, if_pos hk, hid⟩
      · exact ⟨w, by rw [if_neg hk, hw], hid⟩
    · obtain ⟨w, hw⟩ := h.held i c k' hi hk'
      rw [hfind k']
      split_ifs
      · exact ⟨_, rfl⟩
      · exact ⟨w, hw⟩
    · rw [hfind k'] at hk'
      split_ifs at hk' with hk
      · exact hk ▸ h.owned k session hs
      · exact h.owned k' w hk'
    · rw [hfind k']
      by_cases hk : k' = k
      · rw [if_pos hk, hk]
        exact (h.index sIP k).trans (by rw [hs]; rfl)
      · rw [if_neg hk]
        exact h.index sIP k'
    · rw [hfind k'] at hk'
      split_ifs at hk' with hk
      · exact hk ▸ h.fresh k session hs
      · exact h.fresh k' w hk'

theorem Inv.closeSock (h : s.Valid) {uSock k : ℕ} (hsock : s.socks.find uSock = some sock)
    (hk : sock.spSession = some k) : (s.closeSock uSock k).Valid := by
  apply Inv.release
  refine ⟨h.keyed, fun i c k' hi hk' => ?_, fun k' w hk' => ?_, h.index, h.fresh⟩
  · simp only [find_erase] at hi
    split_ifs at hi
    exact h.held i c k' hi hk'
  · rcases h.owned k' w hk' with ho | ho | ho
    · exact .inl ho
    · obtain ⟨i, c, hi, hc⟩ := isHeld_iff.1 ho
      by_cases hne : i = uSock
      · rw [hne, hsock] at hi
        cases hi
        exact .inr (.inr (Option.some.inj (hc.symm.trans hk)))
      · exact .inr (.inl (isHeld_iff.2 ⟨i, c, by rw [find_erase, if_neg hne, hi], hc⟩))
    · exact absurd ho not_false

theorem closeSock_less (s : CSessionManager) (uSock k : ℕ) :
    Less { s with socks := s.socks.erase uSock } (s.closeSock uSock k) := release_less _ k

theorem finishUserSessions_less (s : CSessionManager) (user : ℕ) : Less s (s.finishUserSessions user) :=
  (remItems_spec _).1

theorem finishUserSessions_cache (s : CSessionManager) (user : ℕ) {e : ℕ × ℕ}
    (he : (s.finishUserSessions user).mspSessions.find sId = some e) : s.getUser e.2 ≠ some user := by
  rw [finishUserSessions, (remItems_spec _).2.2] at he
  split_ifs at he with hm
  intro huser
  apply hm
  exact mem_map.2 ⟨(sId, e), mem_filter.2 ⟨(mem_entries_iff ..).2 he, decide_eq_true huser⟩, rfl⟩

theorem Inv.finishUserSessions (h : s.Valid) (user : ℕ) : (s.finishUserSessions user).Valid := (remItems_spec _).2.1 h

theorem Inv.handleUserDeletion (msDelUsers : List (ℕ × Bool)) :
    ∀ {s : CSessionManager}, s.Valid → (s.handleUserDeletion msDelUsers).Valid := by
  induction msDelUsers with
  | nil => exact fun h => h
  | cons d ds ih =>
    intro s h
    refine ih (s := if d.2 then s else _) ?_
    split_ifs
    · exact h
    · have huser : ({ s with users := s.users.filter (· ≠ d.1) } : CSessionManager).Valid :=
        ⟨h.keyed, h.held, h.owned, h.index, h.fresh⟩
      exact huser.finishUserSessions d.1

theorem useSession_cases {uSock : ℕ} {f : CSessionManager → ℕ → CSessionManager × List ℕ} {a : CSessionManager × List ℕ}
    (h : s.useSession uSock r f = some a) :
    ∃ sock t k, s.socks.find uSock = some sock ∧ s.getSession uSock sock r = some (t, k) ∧
      a = ((f t k).1, (if sock.spSession.isNone then (t.getUser k).toList else []) ++ (f t k).2) := by
  obtain ⟨sock, hsock, h⟩ := bind_eq_some_iff.1 h
  obtain ⟨⟨t, k⟩, hget, rfl⟩ := map_eq_some_iff.1 h
  exact ⟨sock, t, k, hsock, hget, rfl⟩

/-- **A step keeps the invariant.** -/
theorem step_inv (h : s.Valid) {op : Op} {a : CSessionManager × List ℕ} (hop : s.apply op = some a) : a.1.Valid := by
  cases op with
  | AddUser =>
    cases hop
    exact ⟨h.keyed, h.held, h.owned, h.index, h.fresh⟩
  | OpenSock uSock sRemoteIP =>
    simp only [apply] at hop
    split_ifs at hop with hnew
    cases hop
    have hnone : s.socks.find uSock = none := by simpa using hnew
    refine ⟨h.keyed, fun i c k hi hk => ?_, fun k w hk => ?_, h.index, h.fresh⟩
    · simp only [find_insert] at hi
      split_ifs at hi
      · cases hi
        exact absurd hk (by simp)
      · exact h.held i c k hi hk
    · rcases h.owned k w hk with ho | ho | ho
      · exact .inl ho
      · obtain ⟨i, c, hi, hc⟩ := isHeld_iff.1 ho
        have hne : i ≠ uSock := by
          rintro rfl
          exact absurd (hnone.symm.trans hi) (by simp)
        exact .inr (.inl (isHeld_iff.2 ⟨i, c, by rw [find_insert, if_neg hne, hi], hc⟩))
      · exact .inr (.inr ho)
  | Request uSock r =>
    simp only [apply] at hop
    obtain ⟨sock, t, k, hsock, hget, rfl⟩ := useSession_cases hop
    exact (getSession_valid h hsock hget).1
  | AcceptedLogin uSock r User =>
    simp only [apply] at hop
    split_ifs at hop
    obtain ⟨sock, t, k, hsock, hget, rfl⟩ := useSession_cases hop
    exact (getSession_valid h hsock hget).1.setUser k _
  | RefusedLogin uSock r =>
    simp only [apply] at hop
    obtain ⟨sock, t, k, hsock, hget, rfl⟩ := useSession_cases hop
    exact (getSession_valid h hsock hget).1.setUser k _
  | Logout uSock r =>
    simp only [apply] at hop
    obtain ⟨sock, t, k, hsock, hget, rfl⟩ := useSession_cases hop
    exact (getSession_valid h hsock hget).1.setUser k _
  | CloseSock uSock r =>
    simp only [apply] at hop
    obtain ⟨sock, t, k, hsock, hget, rfl⟩ := useSession_cases hop
    obtain ⟨hvalid, sock', hsock', hk⟩ := getSession_valid h hsock hget
    exact hvalid.closeSock hsock' hk
  | Cleanup uNow =>
    cases hop
    exact h.cleanup uNow
  | HandleUserDeletion msDelUsers =>
    cases hop
    exact h.handleUserDeletion msDelUsers

/-! ## The cap -/

/-- the sessions of an address that are in the cache -/
def cachedAt (s : CSessionManager) (sIP : CString) : Finset ℕ :=
  (s.mspSessions.entries.map fun e => e.2.2).toFinset.filter fun k => (s.sessions.find k).map CWebSession.sIP = some sIP

/-- the session to be discarded is in the cache, or there is none of the address in it -/
def VictimCached (s : CSessionManager) (sIP : CString) : Prop :=
  ∀ v session, s.victim sIP = some v → s.sessions.find v = some session →
    s.isCached v = true ∨ s.cachedAt sIP = ∅ ∧ s.mspSessions.find session.sId = none

/-- what is taken out of the cache to make room is the least recently active session of the address that is in it -/
def EvictsOldest (s : CSessionManager) (sIP : CString) : Prop :=
  (∃ v session, v ∈ s.cachedAt sIP ∧ s.sessions.find v = some session ∧
    (∀ k ∈ s.cachedAt sIP, s.lastActive v ≤ s.lastActive k) ∧
    ∀ sId, (s.discard sIP).mspSessions.find sId = if sId = session.sId then none else s.mspSessions.find sId) ∨
  s.cachedAt sIP = ∅ ∧ (s.discard sIP).mspSessions = s.mspSessions

variable {sIP : CString}

theorem mem_cachedAt {k : ℕ} :
    k ∈ s.cachedAt sIP ↔ s.isCached k = true ∧ ∃ session, s.sessions.find k = some session ∧ session.sIP = sIP := by
  simp only [cachedAt, Finset.mem_filter, List.mem_toFinset, List.mem_map, isCached, List.any_eq_true,
    decide_eq_true_eq, Option.map_eq_some_iff]

theorem mem_indexed (h : s.Valid) {k : ℕ} :
    k ∈ s.indexed sIP ↔ ∃ session, s.sessions.find k = some session ∧ session.sIP = sIP := by
  have hcount := h.index sIP k
  calc k ∈ s.indexed sIP
      ↔ (sIP, k) ∈ s.mIPSessions := by
        simp only [indexed, List.mem_map, mem_filter, decide_eq_true_eq]
        constructor
        · rintro ⟨⟨sIP', k'⟩, ⟨hm, rfl⟩, rfl⟩
          exact hm
        · exact fun hm => ⟨_, ⟨hm, rfl⟩, rfl⟩
    _ ↔ (s.sessions.find k).map CWebSession.sIP = some sIP := by
        rw [← count_pos_iff, hcount]
        split_ifs with hs <;> simp [hs]
    _ ↔ ∃ session, s.sessions.find k = some session ∧ session.sIP = sIP := map_eq_some_iff

theorem card_cachedAt_le (h : s.Valid) (sIP : CString) : (s.cachedAt sIP).card ≤ (s.indexed sIP).length := by
  have hsub : s.cachedAt sIP ⊆ (s.indexed sIP).toFinset := fun k hk =>
    mem_toFinset.2 ((mem_indexed h).2 (mem_cachedAt.1 hk).2)
  exact (Finset.card_le_card hsub).trans (toFinset_card_le _)

theorem Less.cachedAt (h : Less s t) (sIP : CString) : t.cachedAt sIP ⊆ s.cachedAt sIP := by
  intro k hk
  obtain ⟨hcached, session, hs, hip⟩ := mem_cachedAt.1 hk
  obtain ⟨sId, u, hc⟩ := isCached_iff.1 hcached
  exact mem_cachedAt.2 ⟨isCached_iff.2 ⟨sId, u, h.cache _ _ hc⟩, session, h.sessions _ _ hs, hip⟩

theorem minElement_spec {f : ℕ → ℤ} {l : List ℕ} {m : ℕ} (h : minElement f l = some m) :
    m ∈ l ∧ ∀ k ∈ l, f m ≤ f k := by
  cases l with
  | nil => exact absurd h (by simp [minElement])
  | cons k ks =>
    obtain rfl := Option.some.inj h
    -- the smallest of those seen so far
    have hfold : ∀ (l : List ℕ) (m : ℕ), (l.foldl (fun m k => if f k < f m then k else m) m) ∈ m :: l ∧
        ∀ k ∈ m :: l, f (l.foldl (fun m k => if f k < f m then k else m) m) ≤ f k := by
      intro l
      induction l with
      | nil => exact fun m => ⟨mem_singleton_self m, fun k hk => (mem_singleton.1 hk) ▸ le_rfl⟩
      | cons k l ih =>
        intro m
        rw [foldl_cons]
        obtain ⟨hmem, hmin⟩ := ih (if f k < f m then k else m)
        refine ⟨?_, fun j hj => ?_⟩
        · split_ifs at hmem ⊢ with hlt
          · exact mem_cons_of_mem _ hmem
          · rcases mem_cons.1 hmem with hm | hm
            · exact mem_cons.2 (.inl hm)
            · exact mem_cons_of_mem _ (mem_cons_of_mem _ hm)
        · have hhead := hmin _ (mem_cons_self ..)
          rcases mem_cons.1 hj with rfl | hj
          · refine hhead.trans ?_
            split_ifs with hlt
            · exact hlt.le
            · exact le_rfl
          · rcases mem_cons.1 hj with rfl | hj
            · refine hhead.trans ?_
              split_ifs with hlt
              · exact le_rfl
              · exact not_lt.1 hlt
            · exact hmin j (mem_cons_of_mem _ hj)
    exact hfold ks k

theorem victim_some (h : s.Valid) (hlen : uiMaxSessions < (s.indexed sIP).length) :
    ∃ v session, s.victim sIP = some v ∧ s.sessions.find v = some session ∧ session.sIP = sIP ∧
      ∀ k ∈ s.cachedAt sIP, s.lastActive v ≤ s.lastActive k := by
  cases hv : s.victim sIP with
  | none =>
    unfold victim at hv
    cases hi : s.indexed sIP with
    | nil => exact absurd (hi ▸ hlen) (by decide)
    | cons k ks => exact absurd (hi ▸ hv) (by simp [minElement])
  | some v =>
    obtain ⟨hmem, hmin⟩ := minElement_spec hv
    obtain ⟨session, hs, hip⟩ := (mem_indexed h).1 hmem
    exact ⟨v, session, rfl, hs, hip, fun k hk => hmin k ((mem_indexed h).2 (mem_cachedAt.1 hk).2)⟩

theorem discard_full {v : ℕ} (hlen : uiMaxSessions < (s.indexed sIP).length) (hv : s.victim sIP = some v)
    (hs : s.sessions.find v = some session) : s.discard sIP = s.remItem session.sId := by
  simp only [discard, if_pos hlen, hv, bind_some, hs]

theorem Inv.cached_id (h : s.Valid) {k : ℕ} {session : CWebSession} (hs : s.sessions.find k = some session)
    (hc : s.isCached k = true) : ∃ u, s.mspSessions.find session.sId = some (u, k) := by
  obtain ⟨sId, u, he⟩ := isCached_iff.1 hc
  obtain ⟨session', hs', hid⟩ := h.keyed sId _ he
  obtain rfl : session = session' := Option.some.inj (hs.symm.trans hs')
  exact ⟨u, hid ▸ he⟩

/-- **What is discarded.** If the session that the index names is in the cache, it is the least recently active one there. -/
theorem discard_evicts (h : s.Valid) {sIP : CString} (hlen : uiMaxSessions < (s.indexed sIP).length)
    (hfits : s.VictimCached sIP) : s.EvictsOldest sIP := by
  obtain ⟨v, session, hv, hs, hip, hmin⟩ := victim_some h hlen
  have hdiscard := discard_full hlen hv hs
  rcases hfits v session hv hs with hc | ⟨hempty, hnone⟩
  · refine .inl ⟨v, session, mem_cachedAt.2 ⟨hc, session, hs, hip⟩, hs, hmin, fun sId => ?_⟩
    rw [hdiscard, remItem_cache]
  · refine .inr ⟨hempty, ?_⟩
    rw [hdiscard, remItem, hnone]

/-- no two sessions have one id -/
def DistinctIds (s : CSessionManager) : Prop :=
  ∀ k k' w w', s.sessions.find k = some w → s.sessions.find k' = some w' → w.sId = w'.sId → k = k'

theorem victimCached_of_evicts (h : s.Valid) (hids : s.DistinctIds) (hlen : uiMaxSessions < (s.indexed sIP).length)
    (hevicts : s.EvictsOldest sIP) : s.VictimCached sIP := by
  intro v session hv hs
  cases hc : s.isCached v with
  | true => exact .inl rfl
  | false =>
    have hnone : s.mspSessions.find session.sId = none := by
      cases he : s.mspSessions.find session.sId with
      | none => rfl
      | some e =>
        obtain ⟨w, hw, hid⟩ := h.keyed _ e he
        have hcached := isCached_iff.2 ⟨session.sId, e.1, he⟩
        rw [hids _ _ _ _ hw hs hid, hc] at hcached
        exact absurd hcached (by decide)
    rcases hevicts with ⟨v', session', hmem, hs', -, hfind⟩ | ⟨hempty, -⟩
    · obtain ⟨u, he⟩ := h.cached_id hs' (mem_cachedAt.1 hmem).1
      have hgone := hfind session'.sId
      rw [if_pos rfl, discard_full hlen hv hs, remItem, hnone, he] at hgone
      exact absurd hgone (by simp)
    · exact .inr ⟨hempty, hnone⟩

/-- room for one more -/
theorem card_cachedAt_discard (h : s.Valid) (hcap : (s.cachedAt sIP).card ≤ uiMaxSessions + 1)
    (hfits : uiMaxSessions < (s.indexed sIP).length → s.VictimCached sIP) :
    ((s.discard sIP).cachedAt sIP).card ≤ uiMaxSessions := by
  by_cases hlen : uiMaxSessions < (s.indexed sIP).length
  · obtain ⟨v, session, hv, hs, hip, -⟩ := victim_some h hlen
    rcases hfits hlen v session hv hs with hc | ⟨hempty, -⟩
    · have hsub : (s.discard sIP).cachedAt sIP ⊆ (s.cachedAt sIP).erase v := by
        intro k hk
        refine Finset.mem_erase.2 ⟨?_, (discard_less s sIP).cachedAt sIP hk⟩
        rintro rfl
        obtain ⟨sId, u, he⟩ := isCached_iff.1 (mem_cachedAt.1 hk).1
        rw [discard_full hlen hv hs, remItem_cache] at he
        split_ifs at he with hsid
        obtain ⟨session', hs', hid⟩ := h.keyed sId _ he
        obtain rfl : session = session' := Option.some.inj (hs.symm.trans hs')
        exact hsid hid.symm
      calc ((s.discard sIP).cachedAt sIP).card
          ≤ ((s.cachedAt sIP).erase v).card := Finset.card_le_card hsub
        _ = (s.cachedAt sIP).card - 1 := Finset.card_erase_of_mem (mem_cachedAt.2 ⟨hc, session, hs, hip⟩)
        _ ≤ uiMaxSessions := Nat.sub_le_of_le_add hcap
    · have hsub := (discard_less s sIP).cachedAt sIP
      rw [hempty] at hsub
      rw [Finset.subset_empty.1 hsub]
      exact Nat.zero_le _
  · calc ((s.discard sIP).cachedAt sIP).card
        ≤ (s.cachedAt sIP).card := Finset.card_le_card ((discard_less s sIP).cachedAt sIP)
      _ ≤ (s.indexed sIP).length := card_cachedAt_le h sIP
      _ ≤ uiMaxSessions := not_lt.1 hlen

theorem reuse_cachedAt (h : s.Valid) {uSock k : ℕ} {u : ℕ} (he : s.mspSessions.find sId = some (u, k))
    (hs : s.sessions.find k = some session) (sIP : CString) :
    (s.reuse uSock sock k session r).cachedAt sIP ⊆ s.cachedAt sIP := by
  obtain ⟨session', hs', hid⟩ := h.keyed sId _ he
  obtain rfl : session = session' := Option.some.inj (hs.symm.trans hs')
  rw [← hid] at he
  rw [reuse_eq he rfl]
  intro k' hk'
  obtain ⟨hcached, w, hw, hip⟩ := mem_cachedAt.1 hk'
  obtain ⟨sId', u', hc⟩ := isCached_iff.1 hcached
  refine mem_cachedAt.2 ⟨isCached_iff.2 ?_, ?_⟩
  · simp only [find_insert] at hc
    split_ifs at hc with hsid
    · cases hc
      exact ⟨session.sId, u, he⟩
    · exact ⟨sId', u', hc⟩
  · simp only [find_insert] at hw
    split_ifs at hw with hk
    · cases hw
      exact ⟨session, hk ▸ hs, hip⟩
    · exact ⟨w, hw, hip⟩

theorem create_cachedAt {uSock : ℕ} (r : Readings) (hid : s.mspSessions.find sId = none) (sIP : CString) :
    (s.create uSock sock sId r).cachedAt sIP ⊆
      if sIP = sock.sRemoteIP then insert s.uNextSession (s.cachedAt sIP) else s.cachedAt sIP := by
  rw [create_eq hid]
  intro k hk
  obtain ⟨hcached, w, hw, hip⟩ := mem_cachedAt.1 hk
  obtain ⟨sId', u, hc⟩ := isCached_iff.1 hcached
  by_cases hne : k = s.uNextSession
  · simp only [find_insert, if_pos hne, Option.some.injEq] at hw
    rw [if_pos (by rw [← hip, ← hw]), hne]
    exact Finset.mem_insert_self ..
  · have hold : k ∈ s.cachedAt sIP := by
      simp only [find_insert, if_neg hne] at hw
      refine mem_cachedAt.2 ⟨isCached_iff.2 ⟨sId', u, ?_⟩, w, hw, hip⟩
      simp only [find_insert] at hc
      split_ifs at hc
      · exact absurd (congrArg Prod.snd (Option.some.inj hc)).symm hne
      · exact hc
    split_ifs
    · exact Finset.mem_insert_of_mem hold
    · exact hold

def Capped (s : CSessionManager) : Prop := ∀ sIP, (s.cachedAt sIP).card ≤ uiMaxSessions + 1

theorem Capped.mono (h : s.Capped) (hsub : ∀ sIP, t.cachedAt sIP ⊆ s.cachedAt sIP) : t.Capped := fun sIP =>
  (Finset.card_le_card (hsub sIP)).trans (h sIP)

/-- a new session is about to be made: the sessions that are left, and the address -/
def creates (s : CSessionManager) (uSock : ℕ) (r : Readings) : Option (CSessionManager × CString) :=
  (s.socks.find uSock).bind fun sock =>
    if sock.spSession.isNone ∧ ((s.cleanup r.uGetItem).mspSessions.find r.sCookieSessionId).isNone then
      some (s.cleanup r.uGetItem, sock.sRemoteIP)
    else none

theorem getSession_capped (h : s.Valid) (hcap : s.Capped) {uSock k : ℕ} (hsock : s.socks.find uSock = some sock)
    (hfits : ∀ c ∈ s.creates uSock r, uiMaxSessions < (c.1.indexed c.2).length → c.1.VictimCached c.2)
    (hget : s.getSession uSock sock r = some (t, k)) : t.Capped := by
  rcases getSession_cases hget with ⟨-, rfl⟩ | ⟨hnone, c, hc, hcase⟩
  · exact hcap
  · have hvalid : c.Valid := hc ▸ h.cleanup r.uGetItem
    have hcap' : c.Capped := hcap.mono fun sIP => hc ▸ (cleanup_less s r.uGetItem).cachedAt sIP
    rcases hcase with ⟨u, session, he, hs, rfl⟩ | ⟨hcookie, d, sId, hd, hid, rfl, rfl⟩
    · exact hcap'.mono fun sIP => reuse_cachedAt hvalid he hs sIP
    · have hcreates : (c, sock.sRemoteIP) ∈ s.creates uSock r := by
        rw [creates, hsock, bind_some, ← hc, if_pos ⟨by rw [hnone]; rfl, by rw [hcookie]; rfl⟩]
        exact rfl
      have hroom := card_cachedAt_discard hvalid (hcap' sock.sRemoteIP) (hfits _ hcreates)
      have hless : Less c d := hd ▸ (discard_less c sock.sRemoteIP).trans (cleanup_less _ _)
      intro sIP
      refine (Finset.card_le_card (create_cachedAt r hid sIP)).trans ?_
      split_ifs with hip
      · have hsub : d.cachedAt sIP ⊆ (c.discard sock.sRemoteIP).cachedAt sock.sRemoteIP := by
          rw [hip, hd]
          exact (cleanup_less _ _).cachedAt _
        calc (insert d.uNextSession (d.cachedAt sIP)).card
            ≤ (d.cachedAt sIP).card + 1 := Finset.card_insert_le ..
          _ ≤ ((c.discard sock.sRemoteIP).cachedAt sock.sRemoteIP).card + 1 :=
            Nat.succ_le_succ (Finset.card_le_card hsub)
          _ ≤ uiMaxSessions + 1 := Nat.succ_le_succ hroom
      · exact (Finset.card_le_card (hless.cachedAt sIP)).trans (hcap' sIP)

theorem handleUserDeletion_cachedAt (msDelUsers : List (ℕ × Bool)) (sIP : CString) :
    ∀ {s : CSessionManager}, (s.handleUserDeletion msDelUsers).cachedAt sIP ⊆ s.cachedAt sIP := by
  induction msDelUsers with
  | nil => exact fun {s} => Finset.Subset.refl _
  | cons d ds ih =>
    intro s
    refine (ih (s := if d.2 then s else _)).trans ?_
    split_ifs
    · exact Finset.Subset.refl _
    · exact (finishUserSessions_less { s with users := s.users.filter (· ≠ d.1) } d.1).cachedAt sIP

theorem setUser_cachedAt (s : CSessionManager) (k : ℕ) (pUser : Option ℕ) (sIP : CString) :
    (s.setUser k pUser).cachedAt sIP ⊆ s.cachedAt sIP := by
  intro k' hk'
  obtain ⟨hcached, w, hw, hip⟩ := mem_cachedAt.1 hk'
  have hcache : (s.setUser k pUser).mspSessions = s.mspSessions := by
    unfold setUser
    cases s.sessions.find k <;> rfl
  have hcached' : s.isCached k' = true := by
    unfold isCached at hcached ⊢
    rwa [hcache] at hcached
  refine mem_cachedAt.2 ⟨hcached', ?_⟩
  rw [setUser_find] at hw
  split_ifs at hw with hk
  · obtain ⟨w', hw', rfl⟩ := map_eq_some_iff.1 hw
    exact ⟨w', hk ▸ hw', hip⟩
  · exact ⟨w, hw, hip⟩

end CSessionManager

/-- the call of `GetSession` in a step -/
def Op.getSession : Op → Option (ℕ × Readings)
  | .Request uSock r => some (uSock, r)
  | .AcceptedLogin uSock r _ => some (uSock, r)
  | .RefusedLogin uSock r => some (uSock, r)
  | .Logout uSock r => some (uSock, r)
  | .CloseSock uSock r => some (uSock, r)
  | _ => none

namespace CSessionManager

variable {s t : CSessionManager}

/-- the new sessions of a step for addresses whose index is full -/
def discards (s : CSessionManager) (op : Op) : Option (CSessionManager × CString) :=
  (op.getSession.bind fun g => s.creates g.1 g.2).filter fun c => uiMaxSessions < (c.1.indexed c.2).length

theorem apply_capped (h : s.Valid) (hcap : s.Capped) {op : Op} (hfits : ∀ c ∈ s.discards op, c.1.VictimCached c.2)
    {a : CSessionManager × List ℕ} (hop : s.apply op = some a) : a.1.Capped := by
  have hget : ∀ {t uSock r sock k}, op.getSession = some (uSock, r) → s.socks.find uSock = some sock →
      s.getSession uSock sock r = some (t, k) → t.Capped := by
    intro t uSock r sock k hg hsock hget
    refine getSession_capped h hcap hsock (fun c hc hlen => hfits c ?_) hget
    rw [discards, hg, bind_some, hc, mem_def, filter_some, if_pos (decide_eq_true hlen)]
  cases op with
  | AddUser =>
    cases hop
    exact hcap
  | OpenSock uSock sRemoteIP =>
    simp only [apply] at hop
    split_ifs at hop
    cases hop
    exact hcap
  | Request uSock r =>
    simp only [apply] at hop
    obtain ⟨sock, t, k, hsock, hs, rfl⟩ := useSession_cases hop
    exact hget rfl hsock hs
  | AcceptedLogin uSock r User =>
    simp only [apply] at hop
    split_ifs at hop
    obtain ⟨sock, t, k, hsock, hs, rfl⟩ := useSession_cases hop
    exact (hget rfl hsock hs).mono (setUser_cachedAt t k _)
  | RefusedLogin uSock r =>
    simp only [apply] at hop
    obtain ⟨sock, t, k, hsock, hs, rfl⟩ := useSession_cases hop
    exact (hget rfl hsock hs).mono (setUser_cachedAt t k _)
  | Logout uSock r =>
    simp only [apply] at hop
    obtain ⟨sock, t, k, hsock, hs, rfl⟩ := useSession_cases hop
    exact (hget rfl hsock hs).mono (setUser_cachedAt t k _)
  | CloseSock uSock r =>
    simp only [apply] at hop
    obtain ⟨sock, t, k, hsock, hs, rfl⟩ := useSession_cases hop
    exact (hget rfl hsock hs).mono (closeSock_less t uSock k).cachedAt
  | Cleanup uNow =>
    cases hop
    exact hcap.mono (cleanup_less s uNow).cachedAt
  | HandleUserDeletion msDelUsers =>
    cases hop
    exact hcap.mono fun sIP => handleUserDeletion_cachedAt msDelUsers sIP

/-- one entry for each session, under its address, and the sessions are those in the cache and those of the sockets -/
structure IndexExact (s : CSessionManager) : Prop where
  entries : ∀ sIP k, s.mIPSessions.count (sIP, k) = if (s.sessions.find k).map CWebSession.sIP = some sIP then 1 else 0
  alive : ∀ k, (∃ session, s.sessions.find k = some session) ↔ s.isCached k = true ∨ s.isHeld k = true

theorem Inv.indexExact (h : s.Valid) : s.IndexExact := by
  refine ⟨h.index, fun k => ⟨?_, ?_⟩⟩
  · rintro ⟨session, hs⟩
    exact (h.owned k session hs).imp_right fun ho => ho.resolve_right not_false
  · rintro (hc | hh)
    · obtain ⟨sId, u, he⟩ := isCached_iff.1 hc
      obtain ⟨session, hs, -⟩ := h.keyed sId _ he
      exact ⟨session, hs⟩
    · obtain ⟨i, sock, hi, hk⟩ := isHeld_iff.1 hh
      exact h.held i sock k hi hk

theorem discards_valid (h : s.Valid) {op : Op} {c : CSessionManager × CString} (hc : c ∈ s.discards op) :
    c.1.Valid ∧ Less s c.1 ∧ uiMaxSessions < (c.1.indexed c.2).length := by
  obtain ⟨hbind, hlen⟩ := mem_filter_iff.1 hc
  rw [← and_assoc]
  refine ⟨?_, of_decide_eq_true hlen⟩
  obtain ⟨g, -, hcreates⟩ := bind_eq_some_iff.1 hbind
  obtain ⟨sock, -, hif⟩ := bind_eq_some_iff.1 hcreates
  split_ifs at hif
  cases hif
  exact ⟨h.cleanup _, cleanup_less s _⟩

end CSessionManager

/-- what is asked of a step -/
structure Step.Capped (t : Step) : Prop where
  capped : t.after.Capped
  evicts : ∀ c ∈ t.before.discards t.op, c.1.EvictsOldest c.2

namespace CSessionManager

theorem steps_inv {s : CSessionManager} (h : s.Valid) {ops : List Op} {ts : List Step}
    (hsteps : s.steps ops = some ts) :
    ∀ t ∈ ts, t.before.Valid ∧ t.after.Valid := by
  induction ops generalizing s ts with
  | nil =>
    cases hsteps
    simp
  | cons op ops ih =>
    rw [steps, bind_eq_some_iff] at hsteps
    obtain ⟨a, ha, hrest⟩ := hsteps
    obtain ⟨ts, hts, rfl⟩ := map_eq_some_iff.1 hrest
    rw [forall_mem_cons]
    exact ⟨⟨h, step_inv h ha⟩, ih (step_inv h ha) hts⟩

/-- **The cap on web sessions.** In every run the index has one entry for each session. If, whenever a session is made for an address
whose index is full, the session that the index names is still in the cache, or none of the address is, then no address has more
than six sessions in the cache, and the one that is taken out is the least recently active one there. While no id is generated
twice, this is so in no other runs. -/
theorem sessions_bounded (ops : List Op) (ts : List Step) (hsteps : init.steps ops = some ts) :
    (∀ t ∈ ts, t.after.IndexExact) ∧
      ((∀ t ∈ ts, ∀ c ∈ t.before.discards t.op, c.1.VictimCached c.2) → ∀ t ∈ ts, t.Capped) ∧
      ((∀ t ∈ ts, t.before.DistinctIds) → (∀ t ∈ ts, t.Capped) →
        ∀ t ∈ ts, ∀ c ∈ t.before.discards t.op, c.1.VictimCached c.2) := by
  have hvalid := steps_inv init_valid hsteps
  refine ⟨fun t ht => (hvalid t ht).2.indexExact, ?_, fun hids hcapped t ht c hc => ?_⟩
  rotate_left
  · obtain ⟨hcvalid, hless, hlen⟩ := discards_valid (hvalid t ht).1 hc
    have hcids : c.1.DistinctIds := fun k k' w w' hw hw' =>
      hids t ht k k' w w' (hless.sessions k w hw) (hless.sessions k' w' hw')
    exact victimCached_of_evicts hcvalid hcids hlen ((hcapped t ht).evicts c hc)
  have hrun : ∀ {s : CSessionManager}, s.Valid → s.Capped → ∀ {ts : List Step}, s.steps ops = some ts →
      (∀ t ∈ ts, ∀ c ∈ t.before.discards t.op, c.1.VictimCached c.2) → ∀ t ∈ ts, t.after.Capped := by
    clear hsteps hvalid
    induction ops with
    | nil =>
      intro s _ _ ts hsteps _
      cases hsteps
      simp
    | cons op ops ih =>
      intro s h hcap ts hsteps hfits
      rw [steps, bind_eq_some_iff] at hsteps
      obtain ⟨a, ha, hrest⟩ := hsteps
      obtain ⟨ts, hts, rfl⟩ := map_eq_some_iff.1 hrest
      rw [forall_mem_cons] at hfits ⊢
      have hcap' := apply_capped h hcap hfits.1 ha
      exact ⟨hcap', ih (step_inv h ha) hcap' hts hfits.2⟩
  have hinit : init.Capped := fun sIP => by
    have hempty : init.cachedAt sIP = ∅ := rfl
    rw [hempty]
    exact Nat.zero_le _
  intro hfits t ht
  refine ⟨hrun init_valid hinit hsteps hfits t ht, fun c hc => ?_⟩
  obtain ⟨hcvalid, -, hlen⟩ := discards_valid (hvalid t ht).1 hc
  exact discard_evicts hcvalid hlen (hfits t ht c hc)

/-- a request without a cookie, for which one id is generated -/
def firstVisit (n : ℕ) : Readings := ⟨[], n, n, n, n, [[n.toUInt8]]⟩

/-- the first visits of so many sockets from one address, one after the other -/
def visits (n : ℕ) : List Op :=
  (List.range n).flatMap fun i => [.OpenSock i (lit "10.0.0.1"), .Request i (firstVisit i)]

/-- the seventh visit, for which the first session is discarded, and the end of the first socket -/
theorem sessions_bounded_visits :
    ∃ ts, init.steps (visits 7 ++ [.CloseSock 0 (firstVisit 9)]) = some ts ∧
      (∀ t ∈ ts, t.after.IndexExact) ∧
        ((∀ t ∈ ts, ∀ c ∈ t.before.discards t.op, c.1.VictimCached c.2) → ∀ t ∈ ts, t.Capped) ∧
        ((∀ t ∈ ts, t.before.DistinctIds) → (∀ t ∈ ts, t.Capped) →
          ∀ t ∈ ts, ∀ c ∈ t.before.discards t.op, c.1.VictimCached c.2) :=
  ⟨_, rfl, sessions_bounded (visits 7 ++ [.CloseSock 0 (firstVisit 9)]) _ rfl⟩

/-- Eight sockets stay open. The first session is discarded for the seventh one and, held by its socket, named again for the
eighth one, for which nothing is taken out. -/
theorem sessions_not_bounded :
    ((init.steps (visits 8)).map fun ts => ts.map fun t => (t.after.cachedAt (lit "10.0.0.1")).card) =
      some [0, 1, 1, 2, 2, 3, 3, 4, 4, 5, 5, 6, 6, 6, 6, 7] := by
  decide

end CSessionManager

end Web

end ZNC
