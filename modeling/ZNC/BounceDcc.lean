/-
DCC connections through the bouncer: `CDCCBounce` of `modules/bouncedcc.cpp`.

A request opens a listener. What the listener accepts becomes a pair of sockets: the accepted one, and one that connects to the
other end of the request. The sockets hold pointers to each other, and each forwards what it reads.

The sockets live in a heap. An operation is `none` when it follows a pointer to a socket that was destroyed. Reading, sending and the
end of a connection are the socket library's, and so are events here: lines are read only by sockets with `EnableReadLine`, and
`Write` puts bytes at the end of the write buffer.

Results:
- `step_good`: an event follows no dangling pointer, and keeps what is known of each socket (`Good`);
- `bounce_run`: over every run each pair stays linked and forwards its bytes, with the nick and file name of its request; but its
  sockets are never those of a chat, and the accepted one has never the time-out of the request.
-/
import ZNC.CString
import Mathlib.Logic.Function.Basic

namespace ZNC.BounceDcc

open CString List Option Function

/-! ## Model -/

/-- the arguments of `DCCRequest` -/
structure Request where
  sNick : CString
  uLongIP : ℕ
  uPort : UInt16
  sFileName : CString
  bIsChat : Bool
  sRemoteIP : CString
deriving DecidableEq

/-- a socket: the listener of a request, or a side of the pair of the `k`-th connection that was accepted -/
inductive Addr where
  | listener (i : ℕ)
  | accepted (k : ℕ)
  | remote (k : ℕ)
deriving DecidableEq

/-- `CDCCBounce`, with what the socket library keeps for it -/
structure CDCCBounce where
  sRemoteNick : CString
  sRemoteIP : CString
  sConnectIP : CString
  sLocalIP : CString
  sFileName : CString
  pPeer : Option Addr
  uRemotePort : UInt16
  bIsChat : Bool
  bIsRemote : Bool
  sHostName : CString
  uPort : UInt16
  sSockName : CString
  iTimeout : ℕ
  /-- `EnableReadLine()` -/
  bReadLine : Bool
  bConnected : Bool
  /-- `Close()` was called; the manager destroys the socket later -/
  bClosing : Bool
  bPaused : Bool
  /-- `GetInternalWriteBuffer()` -/
  sSend : CString
  /-- all that was ever handed to `Write` -/
  sWritten : CString

/-- what is outside: the addresses of ZNC and of the requests -/
structure Env where
  getIP : ℕ → CString
  sLocalDCCIP : CString

/-- the constructor of a listener -/
def CDCCBounce.ofRequest (env : Env) (uLongIP : ℕ) (uPort : UInt16) (sFileName sRemoteNick sRemoteIP : CString)
    (bIsChat : Bool := false) : CDCCBounce where
  sRemoteNick := sRemoteNick
  sRemoteIP := sRemoteIP
  sConnectIP := env.getIP uLongIP
  sLocalIP := env.sLocalDCCIP
  sFileName := sFileName
  pPeer := none
  uRemotePort := uPort
  bIsChat := bIsChat
  bIsRemote := false
  sHostName := []
  uPort := 0
  sSockName := []
  iTimeout := 60
  bReadLine := bIsChat
  bConnected := false
  bClosing := false
  bPaused := false
  sSend := []
  sWritten := []

/-- the constructor of the sockets of a pair -/
def CDCCBounce.ofHost (sHostname : CString) (uPort : UInt16) (sRemoteNick sRemoteIP sFileName : CString)
    (iTimeout : ℕ := 60)
    (bIsChat : Bool := false) : CDCCBounce where
  sRemoteNick := sRemoteNick
  sRemoteIP := sRemoteIP
  sConnectIP := []
  sLocalIP := []
  sFileName := sFileName
  pPeer := none
  uRemotePort := 0
  bIsChat := bIsChat
  bIsRemote := false
  sHostName := sHostname
  uPort := uPort
  sSockName := []
  iTimeout := iTimeout
  bReadLine := bIsChat
  bConnected := false
  bClosing := false
  bPaused := false
  sSend := []
  sWritten := []

def CDCCBounce.write (sock : CDCCBounce) (data : CString) : CDCCBounce :=
  { sock with sSend := sock.sSend ++ data, sWritten := sock.sWritten ++ data }

def CDCCBounce.putServ (sock : CDCCBounce) (sLine : CString) : CDCCBounce := sock.write (sLine ++ lit "\r\n")

def CDCCBounce.close (sock : CDCCBounce) : CDCCBounce := { sock with bClosing := true }

def CDCCBounce.shutdown (sock : CDCCBounce) : CDCCBounce := { sock with pPeer := none }.close

def CDCCBounce.connected (sock : CDCCBounce) : CDCCBounce := { sock with bConnected := true, iTimeout := 0 }

def CDCCBounce.pauseRead (sock : CDCCBounce) : CDCCBounce := { sock with bPaused := true }

def CDCCBounce.unPauseRead (sock : CDCCBounce) : CDCCBounce := { sock with bPaused := false }

/-- the sockets of the module, with the history: the requests, the listener of each connection, and what was read -/
structure State where
  sock : Addr → Option CDCCBounce
  vRequests : List Request
  vListener : List ℕ
  vRead : List (Addr × CString)

namespace State

/-- before any request -/
def initial : State := ⟨fun _ => none, [], [], []⟩

/-- a socket is made or changed -/
def put (s : State) (a : Addr) (p : CDCCBounce) : State := { s with sock := update s.sock a (some p) }

/-- the storage of a socket is freed -/
def free (s : State) (a : Addr) : State := { s with sock := update s.sock a none }

/-- a method of the socket that a pointer points to; `none` when it was destroyed -/
def call (s : State) (a : Addr) (f : CDCCBounce → CDCCBounce) : Option State := (s.sock a).map fun p => s.put a (f p)

def dccRequest (env : Env) (s : State) (r : Request) : State :=
  let pDCCBounce := { CDCCBounce.ofRequest env r.uLongIP r.uPort r.sFileName r.sNick r.sRemoteIP r.bIsChat with
    sSockName := lit "DCC::" ++ (if r.bIsChat then lit "Chat" else lit "Xfer") ++ lit "::Local::" ++
      r.sNick, iTimeout := 120 }
  { s with vRequests := s.vRequests ++ [r] }.put (.listener s.vRequests.length) pDCCBounce

/-- `GetSockObj(sHost, uPort)` of a listener -/
def getSockObj (s : State) (i : ℕ) (l : CDCCBounce) (sHost : CString) (uPort : UInt16) : State :=
  let l := { l.close with sRemoteIP := if l.sRemoteIP = [] then sHost else l.sRemoteIP }
  let k := s.vListener.length
  -- the last argument is the time-out: the flag is converted to a number, and the kind is left to its default
  let pSock := CDCCBounce.ofHost sHost uPort l.sRemoteNick l.sRemoteIP l.sFileName l.bIsChat.toNat
  let pRemoteSock := CDCCBounce.ofHost sHost uPort l.sRemoteNick l.sRemoteIP l.sFileName l.bIsChat.toNat
  let pSock := { pSock with pPeer := some (.remote k), bIsRemote := false, sSockName := l.sSockName }
  let pRemoteSock := { pRemoteSock with pPeer := some (.accepted k), bIsRemote := true }
  -- `Connect`
  let pRemoteSock := { pRemoteSock with
    sHostName := l.sConnectIP
    uPort := l.uRemotePort
    sSockName := lit "DCC::" ++ (if l.bIsChat then lit "Chat" else lit "XFER") ++ lit "::Remote::" ++ l.sRemoteNick
    iTimeout := 60 }
  (({ s with vListener := s.vListener ++ [i] }.put (.listener i) l).put (.accepted k) pSock).put (.remote k) pRemoteSock

def readData (s : State) (a : Addr) (p : CDCCBounce) (data : CString) : Option State :=
  match p.pPeer with
  | none => some s
  | some m => (s.sock m).map fun peer =>
    let s := s.put m (peer.write data)
    if (peer.write data).sSend.length ≥ 10 * 1024 then s.put a p.pauseRead else s

def putPeer (s : State) (a : Addr) (p : CDCCBounce) (sLine : CString) : Option State :=
  match p.pPeer with
  | some m => s.call m fun peer => peer.putServ sLine
  | none => some (s.put a (p.putServ (lit "*** Not connected yet ***")))

def readLine (s : State) (a : Addr) (p : CDCCBounce) (sData : CString) : Option State :=
  s.putPeer a p (sData.trimRight_n (lit "\r\n"))

def readPaused (s : State) (a : Addr) (p : CDCCBounce) : Option State :=
  match p.pPeer with
  | none => some (s.put a p.unPauseRead)
  | some m => (s.sock m).map fun peer => if peer.sSend.length ≤ 2 * 1024 then s.put a p.unPauseRead else s

def isPeerConnected (s : State) (p : CDCCBounce) : Option Bool :=
  match p.pPeer with
  | none => some false
  | some m => (s.sock m).map fun peer => peer.bConnected

/-- `~CDCCBounce()` -/
def destroy (s : State) (a : Addr) (p : CDCCBounce) : Option State :=
  match p.pPeer with
  | none => some (s.free a)
  | some m => (s.call m CDCCBounce.shutdown).map fun s => s.free a

end State

/-- what happens to a socket -/
inductive Event where
  | connected
  | readData (data : CString)
  /-- a line of a socket with `EnableReadLine` -/
  | readLine (sData : CString)
  | readPaused
  | isPeerConnected
  /-- `n` bytes of the write buffer were sent -/
  | sent (n : ℕ)
  /-- the connection ends: the other end, a time-out, an error or `ReachedMaxBuffer` -/
  | close
  | destroy

/-- an event of the module -/
inductive Input where
  | dccRequest (r : Request)
  | accept (i : ℕ) (sHost : CString) (uPort : UInt16)
  | sock (a : Addr) (ev : Event)

/-- an event at the socket `p` -/
def State.event (s : State) (a : Addr) (p : CDCCBounce) : Event → Option State
  | .connected => some (s.put a p.connected)
  | .readData data => { s with vRead := s.vRead ++ [(a, data)] }.readData a p data
  | .readLine sData => if p.bReadLine then s.readLine a p sData else some s
  | .readPaused => s.readPaused a p
  | .isPeerConnected => (s.isPeerConnected p).map fun _ => s
  | .sent n => some (s.put a { p with sSend := p.sSend.drop n })
  | .close => some (s.put a p.close)
  | .destroy => s.destroy a p

/-- what may happen to a listener -/
def Event.forListener : Event → Bool
  | .close => true
  | .destroy => true
  | _ => false

/-- whether a socket is a listener -/
def Addr.isListener : Addr → Bool
  | .listener _ => true
  | _ => false

/-- a step; nothing happens at a socket that was destroyed -/
def step (env : Env) (s : State) : Input → Option State
  | .dccRequest r => some (s.dccRequest env r)
  | .accept i sHost uPort =>
    match s.sock (.listener i) with
    | some l => some (s.getSockObj i l sHost uPort)
    | none => some s
  | .sock a ev =>
    match s.sock a with
    | some p => if a.isListener && !ev.forListener then some s else s.event a p ev
    | none => some s

def run (env : Env) (s : State) (inputs : List Input) : Option State := inputs.foldlM (step env) s

/-! ## What is known of the sockets -/

/-- the other side of a pair -/
def Addr.mate : Addr → Option Addr
  | .listener _ => none
  | .accepted k => some (.remote k)
  | .remote k => some (.accepted k)

def State.requestOf (s : State) : Addr → Option Request
  | .listener i => s.vRequests[i]?
  | .accepted k => s.vListener[k]?.bind fun i => s.vRequests[i]?
  | .remote k => s.vListener[k]?.bind fun i => s.vRequests[i]?

/-- the bytes that a socket has read -/
def got (vRead : List (Addr × CString)) (a : Addr) : CString := (vRead.filter fun e => e.1 = a).flatMap Prod.snd

structure OfRequest (r : Request) (p : CDCCBounce) : Prop where
  sRemoteNick : p.sRemoteNick = r.sNick
  sFileName : p.sFileName = r.sFileName

/-- a side of a pair: it points to the other side while that exists, and it was handed what the other side has read -/
structure Side (s : State) (a m : Addr) (p : CDCCBounce) : Prop where
  linked : (s.sock m).isSome → p.pPeer = some m
  left : s.sock m = none → p.pPeer = none ∧ p.bClosing = true
  written : p.sWritten = got s.vRead m
  request : ∃ r, s.requestOf a = some r ∧ OfRequest r p
  raw : p.bIsChat = false ∧ p.bReadLine = false
  timeout : ∀ k, a = .accepted k → p.iTimeout ≤ 1

structure Listens (vRequests : List Request) (i : ℕ) (l : CDCCBounce) : Prop where
  pPeer : l.pPeer = none
  request : ∃ r, vRequests[i]? = some r ∧ OfRequest r l ∧ l.bIsChat = r.bIsChat

/-- a state of the module -/
structure Good (s : State) : Prop where
  listener : ∀ i l, s.sock (.listener i) = some l → Listens s.vRequests i l
  pair : ∀ a m p, a.mate = some m → s.sock a = some p → Side s a m p
  read : ∀ e ∈ s.vRead, (s.requestOf e.1).isSome

variable {s : State} {a m : Addr} {p : CDCCBounce}

theorem mate_symm (h : a.mate = some m) : m.mate = some a := by
  cases a with
  | listener i => exact absurd h (by simp [Addr.mate])
  | accepted k => rw [← some.inj h]; rfl
  | remote k => rw [← some.inj h]; rfl

theorem mate_ne (h : a.mate = some m) : m ≠ a := by
  cases a with
  | listener i => exact absurd h (by simp [Addr.mate])
  | accepted k => rw [← some.inj h]; exact nofun
  | remote k => rw [← some.inj h]; exact nofun

theorem got_append (vRead : List (Addr × CString)) (a b : Addr) (data : CString) :
    got (vRead ++ [(a, data)]) b = got vRead b ++ if a = b then data else [] := by
  rw [got, filter_append, flatMap_append, got]
  by_cases h : a = b
  · simp [h]
  · simp [h]

@[simp] theorem sock_put (s : State) (a : Addr) (p : CDCCBounce) :
    (s.put a p).sock = update s.sock a (some p) := rfl

@[simp] theorem sock_free (s : State) (a : Addr) : (s.free a).sock = update s.sock a none := rfl

@[simp] theorem requestOf_put (s : State) (a b : Addr) (p : CDCCBounce) : (s.put a p).requestOf b = s.requestOf b := by
  cases b <;> rfl

@[simp] theorem requestOf_free (s : State) (a b : Addr) : (s.free a).requestOf b = s.requestOf b := by
  cases b <;> rfl

theorem Good.peer (hs : Good s) (hp : s.sock a = some p) (hm : p.pPeer = some m) :
    a.mate = some m ∧ ∃ q, s.sock m = some q := by
  cases hmate : a.mate with
  | none =>
    cases a with
    | listener i => exact absurd (hs.listener i p hp).pPeer (by simp [hm])
    | accepted k => exact absurd hmate nofun
    | remote k => exact absurd hmate nofun
  | some m' =>
    have hside := hs.pair a m' p hmate hp
    cases hq : s.sock m' with
    | none => exact absurd (hside.left hq).1 (by simp [hm])
    | some q =>
      have hpeer := hside.linked (by simp [hq])
      rw [hm] at hpeer
      rw [some.inj hpeer]
      exact ⟨rfl, q, hq⟩

theorem Good.alone {s : State} (hs : Good s) {a m : Addr} {p : CDCCBounce} (hp : s.sock a = some p)
    (hnone : p.pPeer = none)
    (hmate : a.mate = some m) : s.sock m = none := by
  cases hq : s.sock m with
  | none => rfl
  | some q =>
    have hpeer := (hs.pair a m p hmate hp).linked (by simp [hq])
    exact absurd hpeer (by simp [hnone])

/-! ## What an event does -/

/-- a change of a socket that leaves its pointer, data and output -/
structure Keeps (p p' : CDCCBounce) : Prop where
  pPeer : p'.pPeer = p.pPeer
  sRemoteNick : p'.sRemoteNick = p.sRemoteNick
  sFileName : p'.sFileName = p.sFileName
  bIsChat : p'.bIsChat = p.bIsChat
  bReadLine : p'.bReadLine = p.bReadLine
  bClosing : p.bClosing = true → p'.bClosing = true
  sWritten : p'.sWritten = p.sWritten
  iTimeout : p'.iTimeout ≤ p.iTimeout

theorem OfRequest.keeps {r : Request} {p' : CDCCBounce} (h : OfRequest r p) (hk : Keeps p p') : OfRequest r p' :=
  ⟨hk.sRemoteNick.trans h.sRemoteNick, hk.sFileName.trans h.sFileName⟩

theorem Side.keeps {s' : State} {p' : CDCCBounce} (h : Side s a m p) (hk : Keeps p p')
    (hsome : (s'.sock m).isSome = (s.sock m).isSome) (hgot : got s'.vRead m = got s.vRead m)
    (hreq : ∀ r, s.requestOf a = some r → s'.requestOf a = some r) : Side s' a m p' where
  linked hm := hk.pPeer.trans (h.linked (hsome ▸ hm))
  left hm := by
    have hnone : s.sock m = none := by simpa [hm] using hsome.symm
    exact ⟨hk.pPeer.trans (h.left hnone).1, hk.bClosing (h.left hnone).2⟩
  written := by rw [hk.sWritten, h.written, hgot]
  request := by
    obtain ⟨r, hr, hof⟩ := h.request
    exact ⟨r, hreq r hr, hof.keeps hk⟩
  raw := ⟨hk.bIsChat.trans h.raw.1, hk.bReadLine.trans h.raw.2⟩
  timeout k hacc := hk.iTimeout.trans (h.timeout k hacc)

theorem Keeps.refl (p : CDCCBounce) : Keeps p p := ⟨rfl, rfl, rfl, rfl, rfl, id, rfl, le_rfl⟩

theorem isSome_update {q : CDCCBounce} (hp : s.sock a = some p) (b : Addr) :
    ((s.put a q).sock b).isSome = (s.sock b).isSome := by
  rw [sock_put]
  by_cases hb : b = a
  · rw [hb, update_self, hp]
    rfl
  · rw [update_of_ne hb]

/-- **A socket changes** but keeps its pointer, data and output. -/
theorem Good.put_keeps (hs : Good s) {p' : CDCCBounce} (hp : s.sock a = some p) (hk : Keeps p p') :
    Good (s.put a p') where
  listener i l hl := by
    have hold : ∃ l₀, s.sock (.listener i) = some l₀ ∧ Keeps l₀ l := by
      rw [sock_put] at hl
      by_cases hi : Addr.listener i = a
      · rw [hi, update_self] at hl
        rw [hi, ← some.inj hl]
        exact ⟨p, hp, hk⟩
      · rw [update_of_ne hi] at hl
        exact ⟨l, hl, .refl l⟩
    obtain ⟨l₀, hl₀, hkl⟩ := hold
    obtain ⟨hpeer, r, hr, hof, hchat⟩ := hs.listener i l₀ hl₀
    exact ⟨hkl.pPeer.trans hpeer, r, hr, hof.keeps hkl, hkl.bIsChat.trans hchat⟩
  pair b m q hmate hq := by
    have hold : ∃ q₀, s.sock b = some q₀ ∧ Keeps q₀ q := by
      rw [sock_put] at hq
      by_cases hb : b = a
      · rw [hb, update_self] at hq
        rw [hb, ← some.inj hq]
        exact ⟨p, hp, hk⟩
      · rw [update_of_ne hb] at hq
        exact ⟨q, hq, .refl q⟩
    obtain ⟨q₀, hq₀, hkq⟩ := hold
    exact (hs.pair b m q₀ hmate hq₀).keeps hkq (isSome_update hp m) rfl fun r hr => (requestOf_put s a b p').trans hr
  read e he := by
    rw [requestOf_put]
    exact hs.read e he

theorem Good.log_alone (hs : Good s) (hp : s.sock a = some p) (hnone : p.pPeer = none) (hlist : a.isListener = false)
    (data : CString) : Good { s with vRead := s.vRead ++ [(a, data)] } where
  listener := hs.listener
  pair b m q hmate hq := by
    have hne : a ≠ m := by
      intro ham
      have hback := hs.alone hp hnone (ham ▸ mate_symm hmate)
      rw [hq] at hback
      exact nomatch hback
    refine (hs.pair b m q hmate hq).keeps (.refl q) rfl ?_ fun r hr => hr
    rw [got_append, if_neg hne, append_nil]
  read e he := by
    rcases mem_append.1 he with he | he
    · exact hs.read e he
    · rw [mem_singleton.1 he]
      cases hmate : a.mate with
      | none => cases a <;> simp [Addr.mate, Addr.isListener] at hmate hlist
      | some m =>
        obtain ⟨r, hr, _⟩ := (hs.pair a m p hmate hp).request
        exact isSome_iff_exists.2 ⟨r, hr⟩

/-- **Reading.** What a socket reads is handed to the other side. -/
theorem Good.forward (hs : Good s) {q : CDCCBounce} (hp : s.sock a = some p) (hmate : a.mate = some m)
    (hq : s.sock m = some q) (data : CString) : Good
      ({ s with vRead := s.vRead ++ [(a, data)] }.put m (q.write data)) where
  listener i l hl := by
    have hne : Addr.listener i ≠ m := fun h => by
      have hback := mate_symm hmate
      rw [← h] at hback
      exact nomatch hback
    rw [sock_put, update_of_ne hne] at hl
    exact hs.listener i l hl
  pair b n q' hbn hq' := by
    have hsome : (({ s with vRead := s.vRead ++ [(a, data)] }.put m (q.write data)).sock n).isSome =
      (s.sock n).isSome :=
      isSome_update hq n
    rw [sock_put] at hq'
    by_cases hb : b = m
    · -- the side that is written to
      rw [hb, mate_symm hmate] at hbn
      rw [hb, update_self] at hq'
      rw [hb, ← some.inj hbn, ← some.inj hq']
      obtain ⟨hlinked, hleft, hwritten, hrequest, hraw, htime⟩ := hs.pair m a q (mate_symm hmate) hq
      rw [← some.inj hbn] at hsome
      refine ⟨fun h => hlinked (hsome ▸ h), fun h => ?_, ?_, ?_, hraw, htime⟩
      · have hnone : s.sock a = none := by simpa [h] using hsome.symm
        exact absurd hp (by simp [hnone])
      · calc q.sWritten ++ data = got s.vRead a ++ data := by rw [hwritten]
          _ = got (s.vRead ++ [(a, data)]) a := by rw [got_append, if_pos rfl]
      · obtain ⟨r, hr, hof⟩ := hrequest
        exact ⟨r, (requestOf_put _ m m _).trans hr, hof.1, hof.2⟩
    · rw [update_of_ne hb] at hq'
      have hne : a ≠ n := fun han => by
        have hback := mate_symm hbn
        rw [← han, hmate] at hback
        exact hb (some.inj hback).symm
      have hgot : got (s.vRead ++ [(a, data)]) n = got s.vRead n := by rw [got_append, if_neg hne, append_nil]
      exact (hs.pair b n q' hbn hq').keeps (.refl q') hsome hgot fun r hr => (requestOf_put _ m b _).trans hr
  read e he := by
    rw [requestOf_put]
    rcases mem_append.1 he with he | he
    · exact hs.read e he
    · rw [mem_singleton.1 he]
      obtain ⟨r, hr, _⟩ := (hs.pair a m p hmate hp).request
      exact isSome_iff_exists.2 ⟨r, hr⟩

theorem Good.free_alone (hs : Good s) (hp : s.sock a = some p) (hnone : p.pPeer = none) :
    Good (s.free a) where
  listener i l hl := by
    rw [sock_free] at hl
    by_cases hi : Addr.listener i = a
    · exact absurd hl (by simp [hi])
    · rw [update_of_ne hi] at hl
      exact hs.listener i l hl
  pair b m q hmate hq := by
    rw [sock_free] at hq
    by_cases hb : b = a
    · exact absurd hq (by simp [hb])
    · rw [update_of_ne hb] at hq
      have hne : m ≠ a := fun hma => by
        have hgone := hs.alone hp hnone (hma ▸ mate_symm hmate)
        rw [hq] at hgone
        exact nomatch hgone
      have hsome : ((s.free a).sock m).isSome = (s.sock m).isSome := by rw [sock_free, update_of_ne hne]
      exact (hs.pair b m q hmate hq).keeps (.refl q) hsome rfl fun r hr => (requestOf_free s a b).trans hr
  read e he := by
    rw [requestOf_free]
    exact hs.read e he

/-- **A destroyed socket** shuts the other side down. -/
theorem Good.free_linked {s : State} (hs : Good s) {a m : Addr} {q : CDCCBounce} (hmate : a.mate = some m)
    (hq : s.sock m = some q) : Good ((s.put m q.shutdown).free a) where
  listener i l hl := by
    have hone : Addr.listener i ≠ a := fun h => nomatch h ▸ hmate
    have htwo : Addr.listener i ≠ m := fun h => nomatch h ▸ mate_symm hmate
    rw [sock_free, update_of_ne hone, sock_put, update_of_ne htwo] at hl
    exact hs.listener i l hl
  pair b n q' hbn hq' := by
    have hreq (r : Request) (hr : s.requestOf b = some r) : ((s.put m q.shutdown).free a).requestOf b = some r := by
      rw [requestOf_free, requestOf_put, hr]
    rw [sock_free, sock_put] at hq'
    by_cases hba : b = a
    · exact absurd hq' (by simp [hba])
    rw [update_of_ne hba] at hq'
    by_cases hbm : b = m
    · -- the other side: it has no pointer any more
      rw [hbm, update_self] at hq'
      rw [hbm, mate_symm hmate] at hbn
      rw [hbm] at hreq ⊢
      rw [← some.inj hbn, ← some.inj hq']
      obtain ⟨-, -, hwritten, ⟨r, hr, hof⟩, hraw, htime⟩ := hs.pair m a q (mate_symm hmate) hq
      exact ⟨fun h => absurd h (by simp), fun _ => ⟨rfl, rfl⟩, hwritten, ⟨r, hreq r hr, hof.1, hof.2⟩, hraw, htime⟩
    · rw [update_of_ne hbm] at hq'
      have hna : n ≠ a := fun h => by
        have hback := mate_symm hbn
        rw [h, hmate] at hback
        exact hbm (some.inj hback).symm
      have hnm : n ≠ m := fun h => by
        have hback := mate_symm hbn
        rw [h, mate_symm hmate] at hback
        exact hba (some.inj hback).symm
      have hsome : (((s.put m q.shutdown).free a).sock n).isSome = (s.sock n).isSome := by
        rw [sock_free, update_of_ne hna, sock_put, update_of_ne hnm]
      exact (hs.pair b n q' hbn hq').keeps (.refl q') hsome rfl hreq
  read e he := by
    rw [requestOf_free, requestOf_put]
    exact hs.read e he

theorem getElem?_append_some {α : Type} {xs : List α} {i : ℕ} {x : α} (h : xs[i]? = some x) (ys : List α) :
    (xs ++ ys)[i]? = some x := by
  rw [getElem?_append_left (List.getElem?_eq_some_iff.1 h).1, h]

theorem requestOf_append {s s' : State} {rs : List Request} {is : List ℕ} (hr : s'.vRequests = s.vRequests ++ rs)
    (hl : s'.vListener = s.vListener ++ is) (a : Addr) (r : Request)
      (h : s.requestOf a = some r) : s'.requestOf a = some r := by
  cases a with
  | listener i =>
    rw [State.requestOf, hr]
    exact getElem?_append_some h rs
  | accepted k =>
    obtain ⟨i, hi, hreq⟩ := bind_eq_some_iff.1 h
    rw [State.requestOf, hr, hl, getElem?_append_some hi is, bind_some, getElem?_append_some hreq rs]
  | remote k =>
    obtain ⟨i, hi, hreq⟩ := bind_eq_some_iff.1 h
    rw [State.requestOf, hr, hl, getElem?_append_some hi is, bind_some, getElem?_append_some hreq rs]

theorem requestOf_dccRequest (s : State) (env : Env) (r : Request) (a : Addr) (r' : Request)
    (h : s.requestOf a = some r') :
    (s.dccRequest env r).requestOf a = some r' := by
  have hrequests : (s.dccRequest env r).vRequests = s.vRequests ++ [r] := rfl
  have hlisteners : (s.dccRequest env r).vListener = s.vListener ++ [] := (append_nil _).symm
  exact requestOf_append hrequests hlisteners a r' h

/-- **A request** opens a listener. -/
theorem Good.dccRequest (hs : Good s) (env : Env) (r : Request) : Good (s.dccRequest env r) where
  listener i l hl := by
    rw [State.dccRequest, sock_put] at hl
    by_cases hi : i = s.vRequests.length
    · rw [hi, update_self] at hl
      rw [hi, ← some.inj hl]
      exact ⟨rfl, r, by simp [State.dccRequest, State.put], ⟨rfl, rfl⟩, rfl⟩
    · rw [update_of_ne (fun h => hi (Addr.listener.inj h))] at hl
      obtain ⟨hpeer, r', hr', hof⟩ := hs.listener i l hl
      exact ⟨hpeer, r', getElem?_append_some hr' [r], hof⟩
  pair b m q hmate hq := by
    have hb : b ≠ .listener s.vRequests.length := fun h => nomatch h ▸ hmate
    have hm : m ≠ .listener s.vRequests.length := fun h => nomatch h ▸ mate_symm hmate
    rw [State.dccRequest, sock_put, update_of_ne hb] at hq
    have hsome : ((s.dccRequest env r).sock m).isSome = (s.sock m).isSome := by
      rw [State.dccRequest, sock_put, update_of_ne hm]
    exact (hs.pair b m q hmate hq).keeps (.refl q) hsome rfl (requestOf_dccRequest s env r b)
  read e he := by
    obtain ⟨r', hr'⟩ := isSome_iff_exists.1 (hs.read e he)
    exact isSome_iff_exists.2 ⟨r', requestOf_dccRequest s env r e.1 r' hr'⟩

theorem Good.got_new (hs : Good s) (h : s.requestOf a = none) : got s.vRead a = [] := by
  have hnone : (s.vRead.filter fun e => e.1 = a) = [] := by
    refine filter_eq_nil_iff.2 fun e he hea => ?_
    have hsome := hs.read e he
    rw [of_decide_eq_true hea, h] at hsome
    exact Bool.false_ne_true hsome
  rw [got, hnone]
  rfl

theorem requestOf_getSockObj (s : State) (i : ℕ) (l : CDCCBounce) (sHost : CString) (uPort : UInt16)
    (a : Addr) (r : Request)
    (h : s.requestOf a = some r) : (s.getSockObj i l sHost uPort).requestOf a = some r := by
  have hrequests : (s.getSockObj i l sHost uPort).vRequests = s.vRequests ++ [] := (append_nil _).symm
  have hlisteners : (s.getSockObj i l sHost uPort).vListener = s.vListener ++ [i] := rfl
  exact requestOf_append hrequests hlisteners a r h

/-- **Accepting** makes a pair with the data of the listener. -/
theorem Good.getSockObj (hs : Good s) {i : ℕ} {l : CDCCBounce} (hl : s.sock (.listener i) = some l) (sHost : CString)
    (uPort : UInt16) : Good (s.getSockObj i l sHost uPort) := by
  obtain ⟨hpeer, r, hr, hof, hchat⟩ := hs.listener i l hl
  have hnew : s.requestOf (.accepted s.vListener.length) = none ∧ s.requestOf (.remote s.vListener.length) = none := by
    simp [State.requestOf]
  have hofNew : (s.getSockObj i l sHost uPort).requestOf (.accepted s.vListener.length) = some r ∧
      (s.getSockObj i l sHost uPort).requestOf (.remote s.vListener.length) = some r := by
    simp [State.requestOf, State.getSockObj, State.put, hr]
  have hsock (a : Addr) (h1 : a ≠ .accepted s.vListener.length) (h2 : a ≠ .remote s.vListener.length)
      (h3 : a ≠ .listener i) : (s.getSockObj i l sHost uPort).sock a = s.sock a := by
    rw [State.getSockObj, sock_put, update_of_ne h2, sock_put, update_of_ne h1, sock_put, update_of_ne h3]
  have hsockL : ∃ l', (s.getSockObj i l sHost uPort).sock (.listener i) = some l' ∧ Keeps l l' := by
    rw [State.getSockObj, sock_put, update_of_ne (by simp), sock_put, update_of_ne (by simp), sock_put, update_self]
    exact ⟨_, rfl, rfl, rfl, rfl, rfl, rfl, fun _ => rfl, rfl, le_rfl⟩
  have hsockA : ∃ p, (s.getSockObj i l sHost uPort).sock (.accepted s.vListener.length) = some p ∧
      p.pPeer = some (.remote s.vListener.length) ∧ p.sWritten = [] ∧ OfRequest r p ∧
      (p.bIsChat = false ∧ p.bReadLine = false) ∧ p.iTimeout ≤ 1 := by
    rw [State.getSockObj, sock_put, update_of_ne (by simp), sock_put, update_self]
    exact ⟨_, rfl, rfl, rfl, ⟨hof.1, hof.2⟩, ⟨rfl, rfl⟩, Bool.toNat_le l.bIsChat⟩
  have hsockR : ∃ p, (s.getSockObj i l sHost uPort).sock (.remote s.vListener.length) = some p ∧
      p.pPeer = some (.accepted s.vListener.length) ∧ p.sWritten = [] ∧ OfRequest r p ∧
      (p.bIsChat = false ∧ p.bReadLine = false) := by
    rw [State.getSockObj, sock_put, update_self]
    exact ⟨_, rfl, rfl, rfl, ⟨hof.1, hof.2⟩, rfl, rfl⟩
  refine ⟨fun j l' hl' => ?_, fun a m p hmate hp => ?_, fun e he => ?_⟩
  · by_cases hj : j = i
    · rw [hj] at hl' ⊢
      obtain ⟨l₁, hl₁, hk⟩ := hsockL
      rw [hl₁] at hl'
      rw [← some.inj hl']
      exact ⟨hk.pPeer.trans hpeer, r, hr, hof.keeps hk, hk.bIsChat.trans hchat⟩
    · rw [hsock (.listener j) nofun nofun fun h => hj (Addr.listener.inj h)] at hl'
      exact hs.listener j l' hl'
  · by_cases hA : a = .accepted s.vListener.length
    · rw [hA] at hmate hp ⊢
      obtain ⟨pA, hpA, hpeerA, hwrittenA, hofA, hrawA, htimeA⟩ := hsockA
      obtain ⟨pR, hpR, -⟩ := hsockR
      rw [hpA] at hp
      rw [← some.inj hmate, ← some.inj hp]
      refine ⟨fun _ => hpeerA, fun h => ?_, ?_, ⟨r, hofNew.1, hofA⟩, hrawA, fun _ _ => htimeA⟩
      · exact absurd hpR (by simp [h])
      · exact hwrittenA.trans (hs.got_new hnew.2).symm
    by_cases hR : a = .remote s.vListener.length
    · rw [hR] at hmate hp ⊢
      obtain ⟨pA, hpA, -⟩ := hsockA
      obtain ⟨pR, hpR, hpeerR, hwrittenR, hofR, hrawR⟩ := hsockR
      rw [hpR] at hp
      rw [← some.inj hmate, ← some.inj hp]
      refine ⟨fun _ => hpeerR, fun h => ?_, ?_, ⟨r, hofNew.2, hofR⟩, hrawR, nofun⟩
      · exact absurd hpA (by simp [h])
      · exact hwrittenR.trans (hs.got_new hnew.1).symm
    · -- the sockets of the other pairs
      have hmA : m ≠ .accepted s.vListener.length := fun h => by
        have hback := mate_symm hmate
        rw [h] at hback
        exact hR (some.inj hback).symm
      have hmR : m ≠ .remote s.vListener.length := fun h => by
        have hback := mate_symm hmate
        rw [h] at hback
        exact hA (some.inj hback).symm
      rw [hsock a hA hR fun h => nomatch h ▸ hmate] at hp
      have hm := hsock m hmA hmR fun h => nomatch h ▸ mate_symm hmate
      exact (hs.pair a m p hmate hp).keeps (.refl p) (by rw [hm]) rfl (requestOf_getSockObj s i l sHost uPort a)
  · obtain ⟨r', hr'⟩ := isSome_iff_exists.1 (hs.read e he)
    exact isSome_iff_exists.2 ⟨r', requestOf_getSockObj s i l sHost uPort e.1 r' hr'⟩

/-! ## Runs -/

/-- **An event** at a socket follows no dangling pointer. -/
theorem Good.event (hs : Good s) (hp : s.sock a = some p) (ev : Event)
    (hev : a.isListener = true → ev.forListener = true) : ∃ s', s.event a p ev = some s' ∧ Good s' := by
  cases ev with
  | connected => exact ⟨_, rfl, hs.put_keeps hp ⟨rfl, rfl, rfl, rfl, rfl, id, rfl, Nat.zero_le _⟩⟩
  | readData data =>
    have hlist : a.isListener = false := by
      cases h : a.isListener with
      | false => rfl
      | true => exact absurd (hev h) nofun
    rw [State.event, State.readData]
    cases hpeer : p.pPeer with
    | none => exact ⟨_, rfl, hs.log_alone hp hpeer hlist data⟩
    | some m =>
      obtain ⟨hmate, q, hq⟩ := hs.peer hp hpeer
      have hforward := hs.forward hp hmate hq data
      refine ⟨_, by simp only [hq, map_some]; rfl, ?_⟩
      split
      · -- the reading side is throttled
        have hkeeps : Keeps p p.pauseRead := ⟨rfl, rfl, rfl, rfl, rfl, id, rfl, le_rfl⟩
        refine hforward.put_keeps ?_ hkeeps
        rw [sock_put, update_of_ne (mate_ne (mate_symm hmate)), hp]
      · exact hforward
  | readLine sData =>
    have hlist : a.isListener = false := by
      cases h : a.isListener with
      | false => rfl
      | true => exact absurd (hev h) nofun
    have hraw : p.bReadLine = false := by
      cases hmate : a.mate with
      | none => cases a <;> simp [Addr.mate, Addr.isListener] at hmate hlist
      | some m => exact (hs.pair a m p hmate hp).raw.2
    exact ⟨s, by rw [State.event, hraw, if_neg Bool.false_ne_true], hs⟩
  | readPaused =>
    have hkeeps : Keeps p p.unPauseRead := ⟨rfl, rfl, rfl, rfl, rfl, id, rfl, le_rfl⟩
    rw [State.event, State.readPaused]
    cases hpeer : p.pPeer with
    | none => exact ⟨_, rfl, hs.put_keeps hp hkeeps⟩
    | some m =>
      obtain ⟨-, q, hq⟩ := hs.peer hp hpeer
      refine ⟨_, by simp only [hq, map_some]; rfl, ?_⟩
      split
      · exact hs.put_keeps hp hkeeps
      · exact hs
  | isPeerConnected =>
    rw [State.event, State.isPeerConnected]
    cases hpeer : p.pPeer with
    | none => exact ⟨s, rfl, hs⟩
    | some m =>
      obtain ⟨-, q, hq⟩ := hs.peer hp hpeer
      exact ⟨s, by simp only [hq, map_some], hs⟩
  | sent n => exact ⟨_, rfl, hs.put_keeps hp ⟨rfl, rfl, rfl, rfl, rfl, id, rfl, le_rfl⟩⟩
  | close => exact ⟨_, rfl, hs.put_keeps hp ⟨rfl, rfl, rfl, rfl, rfl, fun _ => rfl, rfl, le_rfl⟩⟩
  | destroy =>
    rw [State.event, State.destroy]
    cases hpeer : p.pPeer with
    | none => exact ⟨_, rfl, hs.free_alone hp hpeer⟩
    | some m =>
      obtain ⟨hmate, q, hq⟩ := hs.peer hp hpeer
      exact ⟨_, by simp only [State.call, hq, map_some], hs.free_linked hmate hq⟩

theorem step_good (env : Env) (hs : Good s) (input : Input) :
    ∃ s', step env s input = some s' ∧ Good s' := by
  cases input with
  | dccRequest r => exact ⟨_, rfl, hs.dccRequest env r⟩
  | accept i sHost uPort =>
    rw [step]
    cases hl : s.sock (.listener i) with
    | none => exact ⟨s, rfl, hs⟩
    | some l => exact ⟨_, rfl, hs.getSockObj hl sHost uPort⟩
  | sock a ev =>
    rw [step]
    cases hp : s.sock a with
    | none => exact ⟨s, rfl, hs⟩
    | some p =>
      by_cases hskip : (a.isListener && !ev.forListener) = true
      · exact ⟨s, if_pos hskip, hs⟩
      · obtain ⟨s', hrun, hgood⟩ := hs.event hp ev fun h => by simpa [h] using hskip
        exact ⟨s', (if_neg hskip).trans hrun, hgood⟩

theorem good_initial : Good .initial where
  listener _ _ h := absurd h.symm (some_ne_none _)
  pair _ _ _ _ h := absurd h.symm (some_ne_none _)
  read _ h := nomatch h

theorem run_good (env : Env) (inputs : List Input) (hs : Good s) :
    ∃ s', run env s inputs = some s' ∧ Good s' := by
  induction inputs generalizing s with
  | nil => exact ⟨s, rfl, hs⟩
  | cons input inputs ih =>
    obtain ⟨s₁, hstep, hs₁⟩ := step_good env hs input
    obtain ⟨s₂, hrun, hs₂⟩ := ih hs₁
    exact ⟨s₂, by rw [run, foldlM_cons, hstep]; exact hrun, hs₂⟩

/-- the kind, nick, file name and time-out of a request; the time-out is the default of the constructor and that of `Connect` -/
structure AsRequested (r : Request) (p : CDCCBounce) : Prop extends OfRequest r p where
  bIsChat : p.bIsChat = r.bIsChat
  iTimeout : p.iTimeout = 60

/-- **Every run.** No pointer to a destroyed socket is followed. A side of a pair points to the other one while that exists, and is
closing without a pointer afterwards; it was handed the bytes that the other one has read; it has the nick and file name of the
request. It has the kind only for a transfer, and the accepted side never the time-out. -/
theorem bounce_run (env : Env) (inputs : List Input) : ∃ s, run env .initial inputs = some s ∧
    ∀ a m p, a.mate = some m → s.sock a = some p →
      (((s.sock m).isSome → p.pPeer = some m) ∧ (s.sock m = none → p.pPeer = none ∧ p.bClosing = true)) ∧
        p.sWritten = got s.vRead m ∧
        ∃ r, s.requestOf a = some r ∧ OfRequest r p ∧ (p.bIsChat = r.bIsChat ↔ r.bIsChat = false) ∧
          ∀ k, a = .accepted k → ¬ AsRequested r p := by
  obtain ⟨s, hrun, hs⟩ := run_good env inputs good_initial
  refine ⟨s, hrun, fun a m p hmate hp => ?_⟩
  obtain ⟨hlinked, hleft, hwritten, ⟨r, hr, hof⟩, hraw, htime⟩ := hs.pair a m p hmate hp
  refine ⟨⟨hlinked, hleft⟩, hwritten, r, hr, hof, ?_, fun k hk has => ?_⟩
  · rw [hraw.1]
    exact eq_comm
  · have hsmall := htime k hk
    rw [has.iTimeout] at hsmall
    exact absurd hsmall (by decide)

/-- a chat with `n` -/
def sampleChat : Request := ⟨lit "n", 0, 5000, [], true, []⟩

def sampleEnv : Env := ⟨fun _ => lit "192.0.2.1", lit "192.0.2.2"⟩

/-- The sockets of a chat are those of a transfer: the accepted one has the time-out 1, and a byte goes to the other one at once,
before its line ends. -/
theorem bounce_chat :
    ((run sampleEnv .initial [.dccRequest sampleChat, .accept 0 (lit "192.0.2.3") 6000,
      .sock (.accepted 0) (.readData (lit "a"))]).bind
        fun s => (s.sock (.accepted 0)).map fun p => (p.bIsChat, p.bReadLine, p.iTimeout)) = some (false, false, 1) ∧
      ((run sampleEnv .initial [.dccRequest sampleChat, .accept 0 (lit "192.0.2.3") 6000,
        .sock (.accepted 0) (.readData (lit "a"))]).bind
        fun s => (s.sock (.remote 0)).map fun p => (p.bIsChat, p.bReadLine, p.sWritten)) =
          some (false, false, lit "a") := by
  decide

end ZNC.BounceDcc
