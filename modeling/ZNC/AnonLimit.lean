/-
The limit of the anonymous connections: `CSockManager::GetAnonConnectionCount` of `src/Socket.cpp`, with the sockets of
`src/Listener.cpp` and the login of `src/Client.cpp`.

A connection is anonymous until it has logged in. The manager sees that at the name of its socket: the name of a client that is
logged in starts with "USR::".

Model: the sockets of the manager in order; a socket has the place of the one that it is swapped for. The name of a new socket, which
the socket library gives it, is any. The sockets of modules count as well. `bLetIn` and `bLoggedIn` have what happened to the
connection; the code does not read them. A request over HTTP logs nobody in on its connection.

Results:
- `limit_run`: the limit holds in every state of a run whose connections meet `Meets`;
- `limit_noneWaits`: the same of a run in which no client waits;
- `waits_uncounted`: clients that sent a line are not counted.
-/
import ZNC.Cidr
import ZNC.Lib.Runs

namespace ZNC.AnonLimit

open CString List

/-! ## Model -/

inductive EAcceptType where
  | ACCEPT_IRC
  | ACCEPT_HTTP
  | ACCEPT_ALL
deriving DecidableEq

/-- the classes of the sockets -/
inductive Kind where
  | CIncomingConnection (m_eAcceptType : EAcceptType)
  | CClient
  | CWebSock
  | other
deriving DecidableEq

structure Csock where
  kind : Kind
  inbound : Bool
  sRemoteIP : CString
  sSockName : CString
  bLetIn : Bool
  bLoggedIn : Bool
deriving DecidableEq

abbrev CSockManager : Type := List Csock

/-- A connection to a listener; a line; a login that is accepted; a login that is refused; a socket that is gone; and a socket of a
module. Sockets are named by their place. -/
inductive Event where
  | accept (sHost sSockName : CString) (eAcceptType : EAcceptType)
  | readLine (i : ℕ) (sLine : CString)
  | acceptLogin (i : ℕ) (sUsername : CString)
  | refuseLogin (i : ℕ)
  | close (i : ℕ)
  | moduleSock (inbound : Bool) (sRemoteIP sSockName : CString)
deriving DecidableEq

/-- the sockets that `GetAnonConnectionCount` counts -/
def Csock.isAnon (sIP : CString) (sock : Csock) : Bool :=
  sock.inbound && sock.sRemoteIP = sIP && !sock.sSockName.startsWith (lit "USR::")

namespace CSockManager

def getAnonConnectionCount (s : CSockManager) (sIP : CString) : ℕ := s.countP (Csock.isAnon sIP)

def allowConnectionFrom (m_uiAnonIPLimit : ℕ) (s : CSockManager) (sIP : CString) : Bool :=
  if m_uiAnonIPLimit = 0 then true else s.getAnonConnectionCount sIP < m_uiAnonIPLimit

end CSockManager

/-- `CRealListener::GetSockObj`; a connection that is not let in is closed when the error is written -/
def getSockObj (m_uiAnonIPLimit : ℕ) (s : CSockManager) (sHost sSockName : CString)
    (eAcceptType : EAcceptType) : Csock :=
  ⟨.CIncomingConnection eAcceptType, true, sHost, sSockName, s.allowConnectionFrom m_uiAnonIPLimit sHost, false⟩

/-- `CIncomingConnection::ReadLine`: the socket that takes its place -/
def Csock.readLine (sock : Csock) (m_eAcceptType : EAcceptType) (sLine : CString) : Csock :=
  let bIsHTTP := wildCmp (lit "GET * HTTP/1.?\r\n") sLine || wildCmp (lit "POST * HTTP/1.?\r\n") sLine
  let bAcceptHTTP := m_eAcceptType = .ACCEPT_ALL ∨ m_eAcceptType = .ACCEPT_HTTP
  let bAcceptIRC := m_eAcceptType = .ACCEPT_ALL ∨ m_eAcceptType = .ACCEPT_IRC
  if !bIsHTTP then
    if bAcceptIRC then { sock with kind := .CClient, sSockName := lit "USR::???" } else sock
  else if bAcceptHTTP then { sock with kind := .CWebSock, sSockName := lit "WebMod::Client" } else sock

/-- a socket gets a line -/
def Csock.onLine (sLine : CString) (sock : Csock) : Csock :=
  match sock.kind with
  | .CIncomingConnection m_eAcceptType => sock.readLine m_eAcceptType sLine
  | _ => sock

def Csock.acceptLogin (sUsername : CString) (sock : Csock) : Csock :=
  match sock.kind with
  | .CClient => { sock with sSockName := lit "USR::" ++ sUsername, bLoggedIn := true }
  | _ => sock

/-- a login that is refused leaves the socket as it is until it is closed -/
def step (m_uiAnonIPLimit : ℕ) (s : CSockManager) : Event → CSockManager
  | .accept sHost sSockName eAcceptType => s ++ [getSockObj m_uiAnonIPLimit s sHost sSockName eAcceptType]
  | .readLine i sLine => s.modify i (Csock.onLine sLine)
  | .acceptLogin i sUsername => s.modify i (Csock.acceptLogin sUsername)
  | .refuseLogin _ => s
  | .close i => s.eraseIdx i
  | .moduleSock inbound sRemoteIP sSockName => s ++ [⟨.other, inbound, sRemoteIP, sSockName, false, false⟩]

/-! ## The limit -/

/-- a connection that was let in and has not logged in -/
def Csock.isOpen (sIP : CString) (sock : Csock) : Bool := sock.bLetIn && !sock.bLoggedIn && sock.sRemoteIP = sIP

/-- such a connection with the name of a client -/
def Csock.waits (sIP : CString) (sock : Csock) : Bool := sock.isOpen sIP && sock.sSockName.startsWith (lit "USR::")

/-- no address has more connections than the limit -/
def Good (m_uiAnonIPLimit : ℕ) (s : CSockManager) : Prop := ∀ sIP, s.countP (Csock.isOpen sIP) ≤ m_uiAnonIPLimit

/-- a connection that is let in would be so if the clients that wait for their login were counted too -/
def Meets (m_uiAnonIPLimit : ℕ) (s : CSockManager) : Event → Prop
  | .accept sHost _ _ => s.getAnonConnectionCount sHost < m_uiAnonIPLimit →
      s.getAnonConnectionCount sHost + s.countP (Csock.waits sHost) < m_uiAnonIPLimit
  | _ => True

instance (m_uiAnonIPLimit : ℕ) (s : CSockManager) : (ev : Event) → Decidable (Meets m_uiAnonIPLimit s ev)
  | .accept _ _ _ => inferInstanceAs (Decidable (_ → _))
  | .readLine _ _ => inferInstanceAs (Decidable True)
  | .acceptLogin _ _ => inferInstanceAs (Decidable True)
  | .refuseLogin _ => inferInstanceAs (Decidable True)
  | .close _ => inferInstanceAs (Decidable True)
  | .moduleSock _ _ _ => inferInstanceAs (Decidable True)

/-- when a connection comes, no client of its address waits for a login -/
def NoneWaits (s : CSockManager) : Event → Prop
  | .accept sHost _ _ => ∀ sock ∈ s, sock.waits sHost = false
  | _ => True

/-! ## What a step does -/

variable {m_uiAnonIPLimit : ℕ} {s : CSockManager}

theorem countP_modify_le {α : Type} {p : α → Bool} {f : α → α} (hf : ∀ x, p (f x) = true → p x = true)
    (xs : List α) (i : ℕ) :
    (xs.modify i f).countP p ≤ xs.countP p := by
  induction xs generalizing i with
  | nil => simp
  | cons x xs ih =>
    cases i with
    | zero =>
      rw [modify_zero_cons, countP_cons, countP_cons]
      by_cases hx : p (f x) = true
      · rw [if_pos hx, if_pos (hf x hx)]
      · rw [if_neg hx]
        omega
    | succ i =>
      rw [modify_succ_cons, countP_cons, countP_cons]
      exact Nat.add_le_add_right (ih i) _

theorem isOpen_onLine (sIP sLine : CString) (sock : Csock) : (sock.onLine sLine).isOpen sIP = sock.isOpen sIP := by
  obtain ⟨kind, inbound, sRemoteIP, sSockName, bLetIn, bLoggedIn⟩ := sock
  cases kind with
  | CIncomingConnection m_eAcceptType =>
    simp only [Csock.onLine, Csock.readLine]
    split_ifs <;> rfl
  | CClient => rfl
  | CWebSock => rfl
  | other => rfl

theorem isOpen_acceptLogin {sIP sUsername : CString} {sock : Csock}
    (h : (sock.acceptLogin sUsername).isOpen sIP = true) :
    sock.isOpen sIP = true := by
  obtain ⟨kind, inbound, sRemoteIP, sSockName, bLetIn, bLoggedIn⟩ := sock
  cases kind with
  | CClient => simp [Csock.acceptLogin, Csock.isOpen] at h
  | CIncomingConnection m_eAcceptType => exact h
  | CWebSock => exact h
  | other => exact h

theorem inbound_onLine (sLine : CString) (sock : Csock) : (sock.onLine sLine).inbound = sock.inbound ∧
    (sock.onLine sLine).bLetIn = sock.bLetIn := by
  obtain ⟨kind, inbound, sRemoteIP, sSockName, bLetIn, bLoggedIn⟩ := sock
  cases kind with
  | CIncomingConnection m_eAcceptType =>
    simp only [Csock.onLine, Csock.readLine]
    split_ifs <;> exact ⟨rfl, rfl⟩
  | CClient => exact ⟨rfl, rfl⟩
  | CWebSock => exact ⟨rfl, rfl⟩
  | other => exact ⟨rfl, rfl⟩

theorem inbound_acceptLogin (sUsername : CString) (sock : Csock) : (sock.acceptLogin sUsername).inbound = sock.inbound ∧
    (sock.acceptLogin sUsername).bLetIn = sock.bLetIn := by
  obtain ⟨kind, inbound, sRemoteIP, sSockName, bLetIn, bLoggedIn⟩ := sock
  cases kind <;> exact ⟨rfl, rfl⟩

theorem step_open (m_uiAnonIPLimit : ℕ) (s : CSockManager) (ev : Event) (sIP : CString) :
    (step m_uiAnonIPLimit s ev).countP (Csock.isOpen sIP) ≤ s.countP (Csock.isOpen sIP) ∨
      (∃ sSockName eAcceptType, ev = .accept sIP sSockName eAcceptType ∧
        s.allowConnectionFrom m_uiAnonIPLimit sIP = true ∧
        (step m_uiAnonIPLimit s ev).countP (Csock.isOpen sIP) = s.countP (Csock.isOpen sIP) + 1) := by
  cases ev with
  | accept sHost sSockName eAcceptType =>
    rw [step, countP_append, countP_singleton]
    by_cases hopen : (getSockObj m_uiAnonIPLimit s sHost sSockName eAcceptType).isOpen sIP = true
    · obtain ⟨hallowed, rfl⟩ : s.allowConnectionFrom m_uiAnonIPLimit sHost = true ∧ sHost = sIP := by
        rw [getSockObj, Csock.isOpen, Bool.and_eq_true, Bool.and_eq_true] at hopen
        exact ⟨hopen.1.1, of_decide_eq_true hopen.2⟩
      exact .inr ⟨sSockName, eAcceptType, rfl, hallowed, by rw [if_pos hopen]⟩
    · rw [if_neg hopen]
      exact .inl le_rfl
  | readLine i sLine => exact .inl (countP_modify_le (fun sock hopen => isOpen_onLine sIP sLine sock ▸ hopen) s i)
  | acceptLogin i sUsername =>
    have hdown : ∀ sock : Csock, (sock.acceptLogin sUsername).isOpen sIP = true → sock.isOpen sIP = true :=
      fun sock hopen => isOpen_acceptLogin hopen
    exact .inl (countP_modify_le hdown s i)
  | refuseLogin i => exact .inl le_rfl
  | close i => exact .inl ((eraseIdx_sublist s i).countP_le)
  | moduleSock inbound sRemoteIP sSockName =>
    rw [step, countP_append, countP_singleton, if_neg (by simp [Csock.isOpen])]
    exact .inl le_rfl

/-- who was let in is inbound, and nobody has more connections than the limit -/
structure Inv (m_uiAnonIPLimit : ℕ) (s : CSockManager) : Prop where
  inbound : ∀ sock ∈ s, sock.bLetIn = true → sock.inbound = true
  good : Good m_uiAnonIPLimit s

theorem open_le (h : ∀ sock ∈ s, sock.bLetIn = true → sock.inbound = true) (sIP : CString) :
    s.countP (Csock.isOpen sIP) ≤ s.getAnonConnectionCount sIP + s.countP (Csock.waits sIP) := by
  induction s with
  | nil => simp
  | cons sock s ih =>
    obtain ⟨hsock, hs⟩ := forall_mem_cons.1 h
    have hrest := ih hs
    rw [CSockManager.getAnonConnectionCount] at hrest ⊢
    rw [countP_cons, countP_cons, countP_cons]
    by_cases hopen : sock.isOpen sIP = true
    · rw [if_pos hopen]
      by_cases hname : sock.sSockName.startsWith (lit "USR::") = true
      · have hwaits : sock.waits sIP = true := by rw [Csock.waits, hopen, hname]; rfl
        rw [if_pos hwaits]
        omega
      · obtain ⟨⟨hletIn, -⟩, hip⟩ : (sock.bLetIn = true ∧ sock.bLoggedIn = false) ∧ sock.sRemoteIP = sIP := by
          simpa [Csock.isOpen] using hopen
        have hanon : sock.isAnon sIP = true := by simp [Csock.isAnon, hsock hletIn, hip, hname]
        rw [if_pos hanon]
        omega
    · rw [if_neg hopen]
      omega

theorem step_inbound (h : ∀ sock ∈ s, sock.bLetIn = true → sock.inbound = true) (ev : Event) :
    ∀ sock ∈ step m_uiAnonIPLimit s ev, sock.bLetIn = true → sock.inbound = true := by
  cases ev with
  | accept sHost sSockName eAcceptType => exact forall_mem_append.2 ⟨h, by simp [getSockObj]⟩
  | readLine i sLine =>
    refine Runs.forall_modify (fun sock hsock => ?_) i h
    rw [(inbound_onLine sLine sock).1, (inbound_onLine sLine sock).2]
    exact hsock
  | acceptLogin i sUsername =>
    refine Runs.forall_modify (fun sock hsock => ?_) i h
    rw [(inbound_acceptLogin sUsername sock).1, (inbound_acceptLogin sUsername sock).2]
    exact hsock
  | refuseLogin i => exact h
  | close i => exact fun sock hsock => h sock ((eraseIdx_sublist s i).subset hsock)
  | moduleSock inbound sRemoteIP sSockName => exact forall_mem_append.2 ⟨h, by simp⟩

theorem step_inv (hlimit : 0 < m_uiAnonIPLimit) (h : Inv m_uiAnonIPLimit s) {ev : Event}
    (hmeets : Meets m_uiAnonIPLimit s ev) :
    Inv m_uiAnonIPLimit (step m_uiAnonIPLimit s ev) := by
  refine ⟨step_inbound h.inbound ev, fun sIP => ?_⟩
  rcases step_open m_uiAnonIPLimit s ev sIP with hle | ⟨sSockName, eAcceptType, rfl, hallowed, hone⟩
  · exact hle.trans (h.good sIP)
  · have hcount : s.getAnonConnectionCount sIP < m_uiAnonIPLimit := by
      simpa [CSockManager.allowConnectionFrom, hlimit.ne'] using hallowed
    have hless := hmeets hcount
    have hopen := open_le h.inbound sIP
    omega

theorem inv_start : Inv m_uiAnonIPLimit [] := ⟨fun sock hsock => absurd hsock List.not_mem_nil, fun sIP => by simp⟩

theorem NoneWaits.meets {ev : Event} (h : NoneWaits s ev) : Meets m_uiAnonIPLimit s ev := by
  cases ev with
  | accept sHost sSockName eAcceptType =>
    have hnone : s.countP (Csock.waits sHost) = 0 := countP_eq_zero.2 fun sock hsock => by simp [h sock hsock]
    intro hcount
    rwa [hnone, Nat.add_zero]
  | _ => trivial

/-! ## Runs -/

/-- **The limit of the anonymous connections** holds after every event, if the clients that wait for their login would not have
kept out a connection that is let in. -/
theorem limit_run (hlimit : 0 < m_uiAnonIPLimit) (evs : List Event)
    (hmeets : Runs.Steps (step m_uiAnonIPLimit) (Meets m_uiAnonIPLimit) evs []) :
    Runs.States (step m_uiAnonIPLimit) (Good m_uiAnonIPLimit) evs [] := by
  have hinv : ∀ s ev, Inv m_uiAnonIPLimit s → Meets m_uiAnonIPLimit s ev →
      Inv m_uiAnonIPLimit (step m_uiAnonIPLimit s ev) :=
    fun s ev h hev => step_inv hlimit h hev
  exact (Runs.states_of_inv hinv evs inv_start hmeets).imp fun s h => h.good

/-- a client logs in before the next one of its address comes -/
theorem limit_run_two :
    let evs : List Event := [.accept (lit "192.0.2.1") (lit "192.0.2.1:1") .ACCEPT_ALL,
      .readLine 0 (lit "PASS pass\r\n"),
      .acceptLogin 0 (lit "user"), .accept (lit "192.0.2.1") (lit "192.0.2.1:2") .ACCEPT_ALL]
    Runs.States (step 1) (Good 1) evs [] :=
  limit_run (by decide) _ (by decide)

/-- Where no client waits when a connection of its address comes, the count of the manager alone keeps the limit. -/
theorem limit_noneWaits (hlimit : 0 < m_uiAnonIPLimit) (evs : List Event)
    (hnone : Runs.Steps (step m_uiAnonIPLimit) NoneWaits evs []) :
    Runs.States (step m_uiAnonIPLimit) (Good m_uiAnonIPLimit) evs [] := by
  have hinv : ∀ s ev, Inv m_uiAnonIPLimit s → NoneWaits s ev → Inv m_uiAnonIPLimit (step m_uiAnonIPLimit s ev) :=
    fun s ev h hev => step_inv hlimit h hev.meets
  exact (Runs.states_of_inv hinv evs inv_start hnone).imp fun s h => h.good

/-- **Clients that sent a line are not counted**: with a limit of one, two connections of an address are open, and nobody logged in. -/
theorem waits_uncounted :
    let evs : List Event := [.accept (lit "192.0.2.1") (lit "192.0.2.1:1") .ACCEPT_ALL,
      .readLine 0 (lit "NICK nick\r\n"),
      .accept (lit "192.0.2.1") (lit "192.0.2.1:2") .ACCEPT_ALL]
    ¬ Runs.States (step 1) (Good 1) evs [] := by
  intro evs hstates
  have hgood := Runs.states_iff.1 hstates evs [] (append_nil evs).symm (lit "192.0.2.1")
  exact absurd hgood (by decide)

end ZNC.AnonLimit
