/-
The client side of SASL: `modules/sasl.cpp` on the socket of `src/IRCSock.cpp`.

When the server acknowledges sasl the module pauses the capability negotiation and tries its mechanisms one after the other.
A pause has to end with a `ResumeCap`, or CAP END is never sent. The module may also want the connection to go on only when
the authentication worked.

Model: what a hook does outside the module is a list of actions. The socket is that of `ZNC.Cap`, and no other module calls
`PauseCap`. A journal of one connection, newest entry first, has the acknowledgements, the actions, and the numerics that end
an attempt; the code does not read it. What the module writes to its user is left out.

Results:
- `step_inv_iff`: a step keeps pauses and resumes balanced exactly if it meets the condition `Meets`;
- `pauses_balanced_iff`: so does a run;
- `aborted_hangs`: numeric 906 leaves the negotiation paused.
-/
import ZNC.Cap
import ZNC.Lib.Runs
import ZNC.UserConfig

namespace ZNC.SaslPause

open CString List Cap

/-! ## The module -/

/-- `Mechanisms`; the index is one of the list, so that `at` does not throw -/
structure Mechanisms where
  vs : VCString
  uiIndex : ℕ
  inBounds : vs ≠ [] → uiIndex < vs.length
deriving DecidableEq

namespace Mechanisms

/-- `Split` into the list and `SetIndex(0)`, which an empty list does without -/
def load (vs : VCString) : Mechanisms := ⟨vs, 0, length_pos_of_ne_nil⟩

def HasNext (m : Mechanisms) : Prop := m.vs.length > m.uiIndex + 1

instance (m : Mechanisms) : Decidable m.HasNext := inferInstanceAs (Decidable (_ > _))

/-- `IncrementIndex()`, where there is a next one -/
def incrementIndex (m : Mechanisms) (h : m.HasNext) : Mechanisms := ⟨m.vs, m.uiIndex + 1, fun _ => h⟩

def getCurrent (m : Mechanisms) (h : m.vs ≠ []) : CString := m.vs.get ⟨m.uiIndex, m.inBounds h⟩

end Mechanisms

/-- what a hook does outside the module -/
inductive Action where
  | PauseCap
  | ResumeCap
  /-- "PutIRC("AUTHENTICATE " + m_Mechanisms.GetCurrent())" -/
  | Attempt (sMechanism : CString)
  | PutIRC (sLine : CString)
  | Quit (sQuitMsg : CString)
deriving DecidableEq, Repr

def Action.capCall : Action → Option Cap.Call
  | .PauseCap => some .PauseCap
  | .ResumeCap => some .ResumeCap
  | _ => none

inductive EModRet where
  | CONTINUE
  | HALT
deriving DecidableEq, Repr

/-- the registry entries of the module, and its fields -/
structure CSASLMod where
  username : CString
  password : CString
  require_auth : CString
  mechanisms : CString
  m_Mechanisms : Mechanisms
  m_bAuthenticated : Bool
deriving DecidableEq

/-- `SupportedMechanisms`: name and default -/
def SupportedMechanisms : List (CString × Bool) := [(lit "EXTERNAL", true), (lit "PLAIN", true)]

namespace CSASLMod

/-- the constructor, with the registry entries as they were saved -/
def load (username password require_auth mechanisms : CString) : CSASLMod :=
  ⟨username, password, require_auth, mechanisms, .load [], false⟩

def set (c : CSASLMod) (sLine : CString) : CSASLMod :=
  if sLine.token 1 false (ch ' ') false = [] then c
  else { c with username := sLine.token 1 false (ch ' ') false, password := sLine.token 2 false (ch ' ') false }

def supportsMechanism (sMechanism : CString) : Bool := SupportedMechanisms.any fun it => sMechanism.equals it.1

def setMechanismCommand (c : CSASLMod) (sLine : CString) : CSASLMod :=
  let sMechanisms := (sLine.token 1 true (ch ' ') false).asUpper
  if sMechanisms ≠ [] ∧ (sMechanisms.split (ch ' ') true).all supportsMechanism then { c with mechanisms := sMechanisms }
  else c

def requireAuthCommand (c : CSASLMod) (sLine : CString) : CSASLMod :=
  if sLine.token 1 false (ch ' ') false ≠ [] then { c with require_auth := sLine.token 1 false (ch ' ') false } else c

/-- a post to the index page -/
def onWebRequest (c : CSASLMod) (username password require_auth mechanisms : CString) : CSASLMod :=
  { c with
    username := username
    password := if password ≠ [] then password else c.password
    require_auth := require_auth
    mechanisms := mechanisms }

def getMechanismsString (c : CSASLMod) : CString :=
  if c.mechanisms = [] then CString.join (lit " ") ((SupportedMechanisms.filter (·.2)).map (·.1)) else c.mechanisms

def checkRequireAuth (c : CSASLMod) : List Action :=
  if !c.m_bAuthenticated && c.require_auth.toBool then [.Quit (lit "SASL not available")] else []

/-- the lines of `Authenticate` with the data: chunks of 400, and an end where the last is full -/
def authLines (sAuthLine : CString) : List CString :=
  (List.range ((sAuthLine.length + 399) / 400)).map
    (fun i => lit "AUTHENTICATE " ++ (sAuthLine.drop (400 * i)).take 400) ++
    if sAuthLine.length % 400 = 0 then [lit "AUTHENTICATE +"] else []

def authenticate (c : CSASLMod) (sLine : CString) : List Action :=
  if h : c.m_Mechanisms.vs = [] then []
  else
    let sAuthLine :=
      if (c.m_Mechanisms.getCurrent h).equals (lit "PLAIN") && sLine.equals (lit "+") then
        (c.username ++ [0] ++ c.username ++ [0] ++ c.password).base64Encode
      else []
    (authLines sAuthLine).map .PutIRC

def onServerCapAvailable (sCap : CString) : Bool := sCap.equals (lit "sasl")

/-- the mechanisms that an acknowledgement loads -/
def configured (c : CSASLMod) : VCString := c.getMechanismsString.split (ch ' ') true

def onServerCapResult (c : CSASLMod) (sCap : CString) (bSuccess : Bool) : CSASLMod × List Action :=
  if !sCap.equals (lit "sasl") then (c, [])
  else if !bSuccess then (c, c.checkRequireAuth)
  else
    let c := { c with m_Mechanisms := .load c.configured }
    if h : c.m_Mechanisms.vs = [] then (c, c.checkRequireAuth)
    else (c, [.PauseCap, .Attempt (c.m_Mechanisms.getCurrent h)])

def onRawMessage (c : CSASLMod) (msg : CMessage) : List Action × EModRet :=
  if msg.sCommand.equals (lit "AUTHENTICATE") then (c.authenticate (msg.getParam 0), .HALT) else ([], .CONTINUE)

def onNumericMessage (c : CSASLMod) (uCode : ℕ) : CSASLMod × List Action × EModRet :=
  if h : c.m_Mechanisms.vs = [] then (c, [], .CONTINUE)
  else if uCode = 903 then ({ c with m_bAuthenticated := true }, [.ResumeCap], .HALT)
  else if uCode = 904 ∨ uCode = 905 then
    if hnext : c.m_Mechanisms.HasNext then
      let m_Mechanisms := c.m_Mechanisms.incrementIndex hnext
      ({ c with m_Mechanisms := m_Mechanisms }, [.Attempt (m_Mechanisms.getCurrent h)], .HALT)
    else (c, c.checkRequireAuth ++ [.ResumeCap], .HALT)
  else if uCode = 906 then (c, c.checkRequireAuth, .HALT)
  else if uCode = 907 then ({ c with m_bAuthenticated := true }, [.ResumeCap], .HALT)
  else if uCode = 908 then (c, [], .HALT)
  else (c, [], .CONTINUE)

def onIRCDisconnected (c : CSASLMod) : CSASLMod := { c with m_bAuthenticated := false }

/-- the results of a CAP line, one after the other, with what each makes the module do -/
def onResults (c : CSASLMod) : List (CString × Bool) → CSASLMod × List (List Action)
  | [] => (c, [])
  | (sCap, bSuccess) :: results =>
    let (c, actions) := c.onServerCapResult sCap bSuccess
    let (c, rest) := onResults c results
    (c, actions :: rest)

end CSASLMod

/-! ## The connection -/

/-- an entry of the journal of a connection -/
inductive Entry where
  /-- the server acknowledges sasl -/
  | acked
  /-- a numeric that ends an attempt -/
  | ended (uCode : ℕ)
  | did (a : Action)
deriving DecidableEq, Repr

/-- the numerics that end an attempt -/
def endsAttempt (uCode : ℕ) : Bool := uCode ∈ [903, 904, 905, 906, 907]

/-- the network: its module, its socket, whether the socket was closed with `Quit`, and the journal -/
structure CIRCNetwork where
  sasl : CSASLMod
  sock : Cap.CIRCSock
  bQuit : Bool
  log : List Entry

/-- what happens to the network -/
inductive Event where
  /-- a CAP line of the server -/
  | cap (m : CMessage)
  /-- another line of it, as `OnRawMessage` sees it -/
  | raw (m : CMessage)
  | numeric (uCode : ℕ)
  /-- numeric 001 -/
  | welcome
  /-- the connection is lost, and there is a new one -/
  | reconnect
  | set (sLine : CString)
  | setMechanism (sLine : CString)
  | requireAuth (sLine : CString)
  | web (username password require_auth mechanisms : CString)

/-- the results that a CAP line makes `OnCapabilityMessage` announce -/
def resultsOf (m : CMessage) : List (CString × Bool) :=
  if sSubCmd m = lit "ACK" then (vsTokens m).map (·, true)
  else if sSubCmd m = lit "NAK" then if (vsTokens m).length = 1 then [(sArgs m, false)] else []
  else if sSubCmd m = lit "DEL" then (vsTokens m).map (·, false)
  else []

/-- what the module replies to `OnCapabilityMessage`, in the order in which it is asked -/
def answersOf (ssBlacklist : SCString) (m : CMessage) (actions : List (List Action)) : List Cap.Answer :=
  if sSubCmd m = lit "LS" ∨ sSubCmd m = lit "NEW" then
    (((vsTokens m).map fun sToken => (capOf sToken).1).filter (· ∉ ssBlacklist)).map
      fun sCap => ⟨CSASLMod.onServerCapAvailable sCap, []⟩
  else actions.map fun as => ⟨false, as.filterMap Action.capCall⟩

/-- what a result leaves in the journal, oldest entry first -/
def entriesOf (result : CString × Bool) (actions : List Action) : List Entry :=
  (if result.1.equals (lit "sasl") && result.2 then [.acked] else []) ++ actions.map .did

def isQuit : Action → Bool
  | .Quit _ => true
  | _ => false

namespace CIRCNetwork

/-- a network with a fresh socket -/
def init (c : CSASLMod) : CIRCNetwork := ⟨c, .init, false, []⟩

/-- the actions in the journal, and whether they close the socket -/
def note (n : CIRCNetwork) (entries : List Entry) (actions : List Action) : CIRCNetwork :=
  { n with bQuit := n.bQuit || actions.any isQuit, log := entries.reverse ++ n.log }

/-- a hook that is not part of a CAP line does its actions -/
def perform (n : CIRCNetwork) (actions : List Action) : CIRCNetwork :=
  { n.note (actions.map .did) actions with sock := (actions.filterMap Action.capCall).foldl Cap.CIRCSock.call n.sock }

def capLine (ssBlacklist : SCString) (n : CIRCNetwork) (m : CMessage) : CIRCNetwork :=
  let (sasl, actions) := n.sasl.onResults (resultsOf m)
  let n := n.note (((resultsOf m).zip actions).flatMap fun e => entriesOf e.1 e.2) actions.flatten
  { n with sasl := sasl, sock := n.sock.onCapabilityMessage ssBlacklist m (answersOf ssBlacklist m actions) }

def numeric (n : CIRCNetwork) (uCode : ℕ) : CIRCNetwork :=
  let (sasl, actions, _) := n.sasl.onNumericMessage uCode
  let n := if endsAttempt uCode then { n with log := .ended uCode :: n.log } else n
  { n.perform actions with sasl := sasl }

def step (ssBlacklist : SCString) (n : CIRCNetwork) : Event → CIRCNetwork
  | .cap m => n.capLine ssBlacklist m
  | .raw m => n.perform (n.sasl.onRawMessage m).1
  | .numeric uCode => n.numeric uCode
  | .welcome => { n with sock := n.sock.handle ssBlacklist .welcome }.perform n.sasl.checkRequireAuth
  | .reconnect => init n.sasl.onIRCDisconnected
  | .set sLine => { n with sasl := n.sasl.set sLine }
  | .setMechanism sLine => { n with sasl := n.sasl.setMechanismCommand sLine }
  | .requireAuth sLine => { n with sasl := n.sasl.requireAuthCommand sLine }
  | .web username password require_auth mechanisms =>
    { n with sasl := n.sasl.onWebRequest username password require_auth mechanisms }

def run (ssBlacklist : SCString) (n : CIRCNetwork) (evs : List Event) : CIRCNetwork := evs.foldl (step ssBlacklist) n

end CIRCNetwork

open SaslPause.CIRCNetwork

/-! ## What the module is for -/

def isAttempt : Action → Bool
  | .Attempt _ => true
  | _ => false

/-- attempts that no numeric has ended yet -/
def opens : List Entry → ℕ
  | [] => 0
  | .did (.Attempt _) :: log => opens log + 1
  | .ended _ :: log => opens log - 1
  | _ :: log => opens log

/-- the authentication worked on this connection -/
def Proven (log : List Entry) : Prop := .ended 903 ∈ log ∨ .ended 907 ∈ log

instance (log : List Entry) : Decidable (Proven log) := inferInstanceAs (Decidable (_ ∨ _))

/-- one `PauseCap` for each acknowledgement, one `ResumeCap` for each whose attempts are over, and the socket is paused as
long as one is not -/
structure Balanced (n : CIRCNetwork) : Prop where
  paused : n.log.count (.did .PauseCap) = n.log.count .acked
  resumed : n.log.count (.did .ResumeCap) + opens n.log = n.log.count (.did .PauseCap)
  counter : n.sock.uCapPaused = .ofNat (opens n.log)

instance (n : CIRCNetwork) : Decidable (Balanced n) :=
  decidable_of_iff (n.log.count (.did .PauseCap) = n.log.count .acked ∧
      n.log.count (.did .ResumeCap) + opens n.log = n.log.count (.did .PauseCap) ∧
      n.sock.uCapPaused = .ofNat (opens n.log))
    ⟨fun h => ⟨h.1, h.2.1, h.2.2⟩, fun h => ⟨h.paused, h.resumed, h.counter⟩⟩

/-- the next request, or CAP END -/
def GoesOn (e : Cap.Entry) : Prop := (∃ vsCaps, e = .requested vsCaps) ∨ (∃ sCap, e = .retried sCap) ∨ e = .ended

/-- with the end of the last attempt the negotiation of an unregistered connection goes on -/
def Proceeds (before after : CIRCNetwork) : Prop :=
  before.sock.bAuthed = false → opens before.log ≠ 0 → opens after.log = 0 →
    ∃ e, GoesOn e ∧ after.sock.log = e :: .resumed :: before.sock.log

/-- what each step has to do: the numeric that ends the last attempt lets the negotiation go on, and a registered
connection is authenticated, if that is required, or closed -/
def StepOk (ssBlacklist : SCString) (n : CIRCNetwork) : Event → Prop
  | .numeric uCode => Proceeds n (n.step ssBlacklist (.numeric uCode))
  | .welcome => n.sasl.require_auth.toBool = true →
      Proven n.log ∨ (n.step ssBlacklist .welcome).bQuit = true
  | _ => True

/-- the server ends attempts that there are -/
def ServerOk (n : CIRCNetwork) : Event → Prop
  | .numeric uCode => endsAttempt uCode = true → opens n.log ≠ 0
  | _ => True

/-- no attempt is aborted, and there is a mechanism when sasl is acknowledged -/
def Meets (n : CIRCNetwork) : Event → Prop
  | .numeric uCode => uCode ≠ 906
  | .cap m => (∃ result ∈ resultsOf m, result.1.equals (lit "sasl") = true ∧ result.2 = true) → n.sasl.configured ≠ []
  | _ => True

/-! ## The pause counter of the socket -/

variable (ssBlacklist : SCString) (s : Cap.CIRCSock) {n : CIRCNetwork}

theorem sendNextCap_uCapPaused : s.sendNextCap.uCapPaused = s.uCapPaused := by
  rcases s.sendNextCap_cases with ⟨h, -⟩ | ⟨-, _, _, -, -, h⟩ | ⟨-, _, -, h⟩ | ⟨-, -, -, h⟩
  all_goals rw [h]

theorem exec_uCapPaused {op : Cap.Op} (hop : ∀ c, op ≠ .call c) :
    (s.exec op).uCapPaused = s.uCapPaused := by
  cases op with
  | call c => exact absurd rfl (hop c)
  | sendNext => exact sendNextCap_uCapPaused s
  | accept sCap =>
    obtain ⟨b1, b2, b3, b4, hset⟩ := s.setSupported_eq sCap true
    simp only [Cap.CIRCSock.exec, hset]
  | remove sCap =>
    obtain ⟨b1, b2, b3, b4, hset⟩ := s.setSupported_eq sCap false
    simp only [Cap.CIRCSock.exec, hset]
  | hear h => rfl
  | list sCap sValue => rfl
  | want sCap => rfl
  | unlist sCap => rfl
  | retryLater sCap => rfl
  | welcome => rfl

theorem foldl_exec_uCapPaused (ops : List Cap.Op) (s : Cap.CIRCSock) (hops : .call .ResumeCap ∉ ops) :
    (ops.foldl Cap.CIRCSock.exec s).uCapPaused = s.uCapPaused + .ofNat (ops.count (.call .PauseCap)) := by
  induction ops generalizing s with
  | nil => exact (UInt32.add_zero _).symm
  | cons op ops ih =>
    have hrest : .call .ResumeCap ∉ ops := fun h => hops (mem_cons_of_mem op h)
    rw [foldl_cons, ih _ hrest]
    by_cases hpause : op = .call .PauseCap
    · rw [hpause, count_cons_self, UInt32.ofNat_add, UInt32.add_comm (UInt32.ofNat _), ← UInt32.add_assoc]
      rfl
    · have hop : ∀ c, op ≠ .call c := by
        intro c hc
        cases c with
        | PauseCap => exact hpause hc
        | ResumeCap => exact hops (hc ▸ mem_cons_self)
      rw [exec_uCapPaused s hop, count_cons_of_ne hpause]

theorem count_hookOps (a : Cap.Answer) (c : Cap.Call) : (hookOps a).count (.call c) = a.calls.count c := by
  rw [hookOps]
  exact count_map_of_injective _ _ (fun _ _ h => Cap.Op.call.inj h) c

theorem count_acceptOps (caps : VCString) (answers : List Cap.Answer) (hlength : answers.length = caps.length)
    (c : Cap.Call) : (acceptOps caps answers).count (.call c) = (answers.flatMap (·.calls)).count c := by
  induction caps generalizing answers with
  | nil =>
    rw [length_eq_zero_iff.1 hlength]
    rfl
  | cons sCap caps ih =>
    cases answers with
    | nil => cases hlength
    | cons a answers =>
      have hrest : answers.length = caps.length := Nat.succ.inj hlength
      have hskip : Cap.Op.accept sCap ≠ .call c := by simp
      simp only [acceptOps, headD_cons, tail_cons]
      rw [count_append, count_hookOps, count_cons_of_ne hskip, ih answers hrest, flatMap_cons, count_append]

theorem hookOps_headD {answers : List Cap.Answer} (hquiet : ∀ a ∈ answers, a.calls = []) :
    hookOps (answers.headD .none) = [] := by
  cases answers with
  | nil => rfl
  | cons a answers =>
    rw [hookOps, headD_cons, hquiet a mem_cons_self]
    rfl

theorem call_not_mem_offerOps (tokens : VCString) (answers : List Cap.Answer) (hquiet : ∀ a ∈ answers, a.calls = [])
    (c : Cap.Call) : .call c ∉ offerOps ssBlacklist tokens answers := by
  induction tokens generalizing answers with
  | nil => simp [offerOps]
  | cons sToken tokens ih =>
    have htail : ∀ a ∈ answers.tail, a.calls = [] := fun a ha => hquiet a (mem_of_mem_tail ha)
    simp only [offerOps, hookOps_headD hquiet]
    split_ifs
    · simpa using ih answers hquiet
    · simpa using ih answers.tail htail
    · simpa using ih answers.tail htail

theorem call_not_mem_deleteOps (caps : VCString) (answers : List Cap.Answer) (hquiet : ∀ a ∈ answers, a.calls = [])
    (c : Cap.Call) : .call c ∉ deleteOps caps answers := by
  induction caps generalizing answers with
  | nil => simp [deleteOps]
  | cons sCap caps ih =>
    have htail : ∀ a ∈ answers.tail, a.calls = [] := fun a ha => hquiet a (mem_of_mem_tail ha)
    simp only [deleteOps, hookOps_headD hquiet]
    simpa using ih answers.tail htail

variable (m : CMessage) (answers : List Cap.Answer)

theorem call_not_mem_bodyOps (hack : sSubCmd m ≠ lit "ACK") (hquiet : ∀ a ∈ answers, a.calls = []) (c : Cap.Call) :
    .call c ∉ bodyOps ssBlacklist m answers := by
  unfold bodyOps
  split_ifs
  · exact call_not_mem_offerOps ssBlacklist _ _ hquiet c
  · rw [hookOps_headD hquiet]
    simp
  · simp
  · exact call_not_mem_deleteOps _ _ hquiet c
  · simp

theorem onCapabilityMessage_uCapPaused (hresume : .call .ResumeCap ∉ bodyOps ssBlacklist m answers) :
    (s.onCapabilityMessage ssBlacklist m answers).uCapPaused =
      s.uCapPaused + .ofNat ((bodyOps ssBlacklist m answers).count (.call .PauseCap)) := by
  have hends : ∀ c : Cap.Call, .call c ∉ (if bMore m then [] else [Cap.Op.sendNext]) := by
    intro c
    split_ifs
    all_goals simp
  have hheard : ∀ c : Cap.Call, .call c ∉ (heard m).map Cap.Op.hear := by simp
  rw [Cap.CIRCSock.onCapabilityMessage_eq_ops, opsOf, lineOps, foldl_exec_uCapPaused]
  · rw [count_append, count_append, count_eq_zero_of_not_mem (hheard _),
      count_eq_zero_of_not_mem (hends _), Nat.zero_add, Nat.add_zero]
  · simp only [mem_append, not_or]
    exact ⟨hheard _, hresume, hends _⟩

/-! ## The hooks of a CAP line -/

/-- the result is an acknowledgement of sasl -/
def announces (result : CString × Bool) : Bool := result.1.equals (lit "sasl") && result.2

namespace CSASLMod

variable (c : CSASLMod)

theorem checkRequireAuth_quits : ∀ a ∈ c.checkRequireAuth, isQuit a = true := by
  unfold checkRequireAuth
  split_ifs
  · simp [isQuit]
  · simp

/-- the module with the configured mechanisms loaded -/
def loaded (c : CSASLMod) : CSASLMod := { c with m_Mechanisms := .load c.configured }

@[simp] theorem loaded_configured : c.loaded.configured = c.configured := rfl

@[simp] theorem loaded_loaded : c.loaded.loaded = c.loaded := rfl

theorem onServerCapResult_other {result : CString × Bool} (h : announces result = false) :
    ∃ actions, c.onServerCapResult result.1 result.2 = (c, actions) ∧ ∀ a ∈ actions, isQuit a = true := by
  unfold onServerCapResult
  by_cases hsasl : result.1.equals (lit "sasl") = true
  · have hfail : result.2 = false := by simpa [announces, hsasl] using h
    exact ⟨c.checkRequireAuth, by simp [hsasl, hfail], c.checkRequireAuth_quits⟩
  · exact ⟨[], by simp [hsasl], by simp⟩

theorem onServerCapResult_idle {result : CString × Bool} (h : announces result = true) (hempty : c.configured = []) :
    ∃ actions, c.onServerCapResult result.1 result.2 = (c.loaded, actions) ∧ ∀ a ∈ actions, isQuit a = true := by
  obtain ⟨hsasl, hsuccess⟩ := (Bool.and_eq_true _ _).mp h
  have hvs : c.loaded.m_Mechanisms.vs = [] := hempty
  refine ⟨c.loaded.checkRequireAuth, ?_, c.loaded.checkRequireAuth_quits⟩
  simp only [onServerCapResult, hsasl, hsuccess, Bool.not_true, Bool.false_eq_true, if_false]
  exact dif_pos hvs

theorem onServerCapResult_starts {result : CString × Bool} (h : announces result = true) (hne : c.configured ≠ []) :
    ∃ sMechanism, c.onServerCapResult result.1 result.2 = (c.loaded, [.PauseCap, .Attempt sMechanism]) := by
  obtain ⟨hsasl, hsuccess⟩ := (Bool.and_eq_true _ _).mp h
  have hvs : c.loaded.m_Mechanisms.vs ≠ [] := hne
  refine ⟨c.loaded.m_Mechanisms.getCurrent hvs, ?_⟩
  simp only [onServerCapResult, hsasl, hsuccess, Bool.not_true, Bool.false_eq_true, if_false]
  exact dif_neg hvs

end CSASLMod

theorem counts_of_quits {actions : List Action} (h : ∀ a ∈ actions, isQuit a = true) :
    actions.count .PauseCap = 0 ∧ actions.count .ResumeCap = 0 ∧ actions.countP isAttempt = 0 := by
  have hne : ∀ a, isQuit a = false → a ∉ actions := by
    intro a ha hmem
    exact Bool.false_ne_true (ha.symm.trans (h a hmem))
  refine ⟨count_eq_zero.2 (hne _ rfl), count_eq_zero.2 (hne _ rfl), countP_eq_zero.2 ?_⟩
  intro a ha
  have hquit := h a ha
  cases a with
  | Quit s => exact Bool.false_ne_true
  | PauseCap => cases hquit
  | ResumeCap => cases hquit
  | Attempt s => cases hquit
  | PutIRC s => cases hquit

namespace CSASLMod

/-- the acknowledgements of a line that start an attempt -/
def started (c : CSASLMod) (results : List (CString × Bool)) : ℕ :=
  if c.configured = [] then 0 else results.countP announces

/-- **The results of a CAP line.** Each acknowledgement pauses once and starts one attempt, if there is a mechanism. -/
theorem onResults_spec (c : CSASLMod) (results : List (CString × Bool)) :
    (c.onResults results).2.length = results.length ∧
      (c.onResults results).1 = (if results.countP announces = 0 then c else c.loaded) ∧
      (c.onResults results).2.flatten.count .PauseCap = c.started results ∧
      (c.onResults results).2.flatten.count .ResumeCap = 0 ∧
      (c.onResults results).2.flatten.countP isAttempt = c.started results := by
  induction results generalizing c with
  | nil => simp [onResults, started]
  | cons result results ih =>
    simp only [onResults, length_cons, flatten_cons, count_append, countP_append, countP_cons, started]
    cases hresult : announces result with
    | false =>
      obtain ⟨actions, hdo, hquits⟩ := c.onServerCapResult_other hresult
      obtain ⟨hpause, hresume, hattempt⟩ := counts_of_quits hquits
      obtain ⟨hlength, hmod, hpauses, hresumes, hattempts⟩ := ih c
      simp [hdo, hpause, hresume, hattempt, hlength, hmod, hpauses, hresumes, hattempts, started]
    | true =>
      obtain ⟨hlength, hmod, hpauses, hresumes, hattempts⟩ := ih c.loaded
      by_cases hempty : c.configured = []
      · obtain ⟨actions, hdo, hquits⟩ := c.onServerCapResult_idle hresult hempty
        obtain ⟨hpause, hresume, hattempt⟩ := counts_of_quits hquits
        simp [hdo, hpause, hresume, hattempt, hlength, hmod, hpauses, hresumes, hattempts, started, hempty]
      · obtain ⟨sMechanism, hdo⟩ := c.onServerCapResult_starts hresult hempty
        simp [hdo, hlength, hmod, hpauses, hresumes, hattempts, started, hempty, isAttempt, Nat.add_comm]

end CSASLMod

/-! ## The journal -/

/-- the entry of a new attempt -/
def begins : Entry → Bool
  | .did a => isAttempt a
  | _ => false

theorem opens_append {new log : List Entry} (h : ∀ uCode, .ended uCode ∉ new) :
    opens (new ++ log) = new.countP begins + opens log := by
  induction new with
  | nil => simp
  | cons e new ih =>
    have hrest : ∀ uCode, .ended uCode ∉ new := fun uCode hmem => h uCode (mem_cons_of_mem e hmem)
    have hcons : ∀ a, (∀ s, a ≠ .Attempt s) → opens (.did a :: (new ++ log)) = opens (new ++ log) := by
      intro a ha
      cases a with
      | Attempt s => exact absurd rfl (ha s)
      | _ => rfl
    cases e with
    | ended uCode => exact absurd mem_cons_self (h uCode)
    | acked => simpa [opens, begins] using ih hrest
    | did a =>
      rw [cons_append, countP_cons]
      cases a with
      | Attempt s =>
        have hone : begins (.did (.Attempt s)) = true := rfl
        rw [opens, ih hrest, if_pos hone]
        omega
      | _ =>
        rw [hcons _ (by simp), ih hrest]
        rfl

theorem opens_did (actions : List Action) (log : List Entry) :
    opens ((actions.map Entry.did).reverse ++ log) = actions.countP isAttempt + opens log := by
  have hends : ∀ uCode, .ended uCode ∉ (actions.map Entry.did).reverse := by simp
  rw [opens_append hends, countP_reverse, countP_map]
  rfl

theorem count_did (a : Action) (actions : List Action) : (actions.map Entry.did).count (.did a) = actions.count a :=
  count_map_of_injective _ _ (fun _ _ h => Entry.did.inj h) a

theorem entries_spec (results : List (CString × Bool)) (actions : List (List Action))
    (hlength : actions.length = results.length) :
    let entries := (results.zip actions).flatMap fun e => entriesOf e.1 e.2
    (∀ uCode, .ended uCode ∉ entries) ∧ entries.count .acked = results.countP announces ∧
      (∀ a, entries.count (.did a) = actions.flatten.count a) ∧
      entries.countP begins = actions.flatten.countP isAttempt := by
  induction results generalizing actions with
  | nil =>
    rw [length_eq_zero_iff.1 hlength]
    simp
  | cons result results ih =>
    cases actions with
    | nil => cases hlength
    | cons as actions =>
      obtain ⟨hends, hacked, hdid, hbegins⟩ := ih actions (Nat.succ.inj hlength)
      have hnone : ∀ e : Entry, (∀ a, e ≠ .did a) → (as.map Entry.did).count e = 0 := by
        intro e he
        apply count_eq_zero.2
        intro hmem
        obtain ⟨a, -, ha⟩ := mem_map.1 hmem
        exact he a ha.symm
      simp only [zip_cons_cons, flatMap_cons, flatten_cons, count_append, countP_append,
        mem_append, countP_cons, not_or, hacked, hdid, hbegins]
      refine ⟨fun uCode => ⟨?_, hends uCode⟩, ?_, fun a => ?_, ?_⟩
      · unfold entriesOf
        split_ifs
        · simp
        · simp
      · rw [Nat.add_comm, entriesOf, count_append, hnone .acked (by simp), announces]
        split_ifs
        · rfl
        · rfl
      · rw [entriesOf, count_append, count_did]
        split_ifs
        · simp
        · simp
      · rw [entriesOf, countP_append, countP_map]
        split_ifs
        · simp [begins, Function.comp_def]
        · simp [begins, Function.comp_def]

/-! ## Steps -/

/-- what holds between two steps: an attempt has its mechanisms, and the module is authenticated by a numeric only -/
structure Inv (n : CIRCNetwork) : Prop where
  balanced : Balanced n
  loaded : opens n.log ≠ 0 → n.sasl.m_Mechanisms.vs ≠ []
  proven : n.sasl.m_bAuthenticated = true → Proven n.log

theorem inv_init {c : CSASLMod} (h : c.m_bAuthenticated = false) : Inv (init c) where
  balanced := ⟨rfl, rfl, rfl⟩
  loaded := fun hopen => absurd rfl hopen
  proven := fun hauth => by rw [init, h] at hauth; cases hauth

theorem Proven.append {log : List Entry} (h : Proven log) (new : List Entry) : Proven (new ++ log) :=
  h.imp (mem_append_right new) (mem_append_right new)

theorem balanced_append_iff {after : CIRCNetwork} (h : Balanced n) {new : List Entry} (hlog : after.log = new ++ n.log)
    (hends : ∀ uCode, .ended uCode ∉ new) (hresume : new.count (.did .ResumeCap) = 0)
    (hcounter : after.sock.uCapPaused = n.sock.uCapPaused + .ofNat (new.count (.did .PauseCap))) :
    Balanced after ↔ new.count (.did .PauseCap) = new.count .acked ∧
      new.countP begins = new.count (.did .PauseCap) := by
  have hopens : opens after.log = new.countP begins + opens n.log := hlog ▸ opens_append hends
  have hpaused := h.paused
  have hresumed := h.resumed
  constructor
  · intro hafter
    have hp := hafter.paused
    have hr := hafter.resumed
    rw [hopens] at hr
    rw [hlog] at hp hr
    simp only [count_append] at hp hr
    omega
  · intro ⟨hp, hbegin⟩
    refine ⟨?_, ?_, ?_⟩
    · rw [hlog, count_append, count_append, hp, hpaused]
    · rw [hopens, hlog, count_append, count_append]
      omega
    · rw [hcounter, h.counter, hopens, hbegin, UInt32.ofNat_add, UInt32.add_comm]

theorem capCall_of_quit {a : Action} (h : isQuit a = true) : a.capCall = none ∧ isAttempt a = false := by
  cases a with
  | Quit s => exact ⟨rfl, rfl⟩
  | PauseCap => cases h
  | ResumeCap => cases h
  | Attempt s => cases h
  | PutIRC s => cases h

theorem perform_inv (h : Inv n) {actions : List Action}
    (hactions : ∀ a ∈ actions, a.capCall = none ∧ isAttempt a = false) : Inv (n.perform actions) := by
  have hlog : (n.perform actions).log = (actions.map Entry.did).reverse ++ n.log := rfl
  have hends : ∀ uCode, .ended uCode ∉ (actions.map Entry.did).reverse := by simp
  have hcount : ∀ a : Action, a.capCall ≠ none → ((actions.map Entry.did).reverse).count (.did a) = 0 := by
    intro a ha
    rw [count_reverse, count_did]
    exact count_eq_zero.2 fun hmem => ha (hactions a hmem).1
  have hbegins : (actions.map Entry.did).reverse.countP begins = 0 := by
    rw [countP_reverse, countP_map]
    apply countP_eq_zero.2
    intro a ha
    exact ne_true_of_eq_false (hactions a ha).2
  have hsock : (n.perform actions).sock = n.sock := by
    have hnone : actions.filterMap Action.capCall = [] := filterMap_eq_nil_iff.2 fun a ha => (hactions a ha).1
    simp only [perform, hnone, foldl_nil]
  have hpause := hcount .PauseCap (by simp [Action.capCall])
  have hacked : (actions.map Entry.did).reverse.count .acked = 0 := count_eq_zero.2 (by simp)
  refine ⟨(balanced_append_iff h.balanced hlog hends (hcount .ResumeCap (by simp [Action.capCall])) ?_).2 ?_, ?_, ?_⟩
  · rw [hsock, hpause]
    exact (UInt32.add_zero _).symm
  · rw [hpause, hacked, hbegins]
    exact ⟨rfl, rfl⟩
  · intro hopen
    rw [hlog, opens_append hends, hbegins, Nat.zero_add] at hopen
    exact h.loaded hopen
  · exact fun hauth => (h.proven hauth).append _

/-! ### A CAP line -/

theorem countP_announces {m : CMessage} (h : sSubCmd m ≠ lit "ACK") : (resultsOf m).countP announces = 0 := by
  apply countP_eq_zero.2
  intro result hmem
  have hfail : result.2 = false := by
    rw [resultsOf, if_neg h] at hmem
    split_ifs at hmem
    · exact congrArg Prod.snd (mem_singleton.1 hmem)
    · cases hmem
    · obtain ⟨t, -, rfl⟩ := mem_map.1 hmem
      rfl
    · cases hmem
  rw [announces, hfail, Bool.and_false]
  exact Bool.false_ne_true

theorem count_calls {c : Cap.Call} {a : Action} (hc : ∀ b, b.capCall = some c ↔ b = a) (actions : List (List Action)) :
    ((actions.map fun as => (⟨false, as.filterMap Action.capCall⟩ : Cap.Answer)).flatMap (·.calls)).count c =
      actions.flatten.count a := by
  induction actions with
  | nil => rfl
  | cons as actions ih =>
    have hhead : (as.filterMap Action.capCall).count c = as.count a := by
      rw [count_filterMap, List.count]
      congr 1
      funext b
      rw [Bool.eq_iff_iff, beq_iff_eq, beq_iff_eq, hc]
    rw [map_cons, flatMap_cons, count_append, ih, hhead, flatten_cons, count_append]

theorem capCall_eq_pause (b : Action) : b.capCall = some .PauseCap ↔ b = .PauseCap := by
  cases b with
  | _ => simp [Action.capCall]

theorem capCall_eq_resume (b : Action) : b.capCall = some .ResumeCap ↔ b = .ResumeCap := by
  cases b with
  | _ => simp [Action.capCall]

/-- **The socket pauses as often as the module says.** -/
theorem capLine_uCapPaused (n : CIRCNetwork) (m : CMessage) :
    (n.capLine ssBlacklist m).sock.uCapPaused = n.sock.uCapPaused + .ofNat (n.sasl.started (resultsOf m)) := by
  obtain ⟨hlength, -, hpauses, hresumes, -⟩ := n.sasl.onResults_spec (resultsOf m)
  have hcounter : ∀ answers, answersOf ssBlacklist m (n.sasl.onResults (resultsOf m)).2 = answers →
      .call .ResumeCap ∉ bodyOps ssBlacklist m answers →
      (bodyOps ssBlacklist m answers).count (.call .PauseCap) = n.sasl.started (resultsOf m) →
      (n.capLine ssBlacklist m).sock.uCapPaused = n.sock.uCapPaused + .ofNat (n.sasl.started (resultsOf m)) := by
    intro answers hanswers hresume hpause
    have hsock : (n.capLine ssBlacklist m).sock = n.sock.onCapabilityMessage ssBlacklist m answers := hanswers ▸ rfl
    rw [hsock, onCapabilityMessage_uCapPaused ssBlacklist n.sock m answers hresume, hpause]
  by_cases hack : sSubCmd m = lit "ACK"
  · have hnot : ¬(sSubCmd m = lit "LS" ∨ sSubCmd m = lit "NEW") := by
      rw [hack]
      decide
    have hops : ∀ answers, bodyOps ssBlacklist m answers = acceptOps (vsTokens m) answers := by
      intro answers
      rw [bodyOps, if_neg hnot, if_pos hack]
    have htokens : (n.sasl.onResults (resultsOf m)).2.length = (vsTokens m).length := by
      rw [hlength, resultsOf, if_pos hack, length_map]
    have hcount : ∀ c a, (∀ b : Action, b.capCall = some c ↔ b = a) →
        (bodyOps ssBlacklist m (answersOf ssBlacklist m (n.sasl.onResults (resultsOf m)).2)).count (.call c) =
          (n.sasl.onResults (resultsOf m)).2.flatten.count a := by
      intro c a hc
      rw [hops, answersOf, if_neg hnot, count_acceptOps _ _ (by rw [length_map, htokens]), count_calls hc]
    apply hcounter _ rfl
    · apply count_eq_zero.1
      rw [hcount _ _ capCall_eq_resume, hresumes]
    · rw [hcount _ _ capCall_eq_pause, hpauses]
  · have hnone : n.sasl.started (resultsOf m) = 0 := by
      rw [CSASLMod.started, countP_announces hack, ite_self]
    rw [hnone] at hpauses
    have hquiet : ∀ a ∈ answersOf ssBlacklist m (n.sasl.onResults (resultsOf m)).2, a.calls = [] := by
      intro a ha
      unfold answersOf at ha
      split_ifs at ha
      · obtain ⟨sCap, -, rfl⟩ := mem_map.1 ha
        rfl
      · obtain ⟨as, has, rfl⟩ := mem_map.1 ha
        apply filterMap_eq_nil_iff.2
        intro b hb
        have hmem : b ∈ (n.sasl.onResults (resultsOf m)).2.flatten := mem_flatten_of_mem has hb
        cases b with
        | PauseCap => exact absurd hmem (count_eq_zero.1 hpauses)
        | ResumeCap => exact absurd hmem (count_eq_zero.1 hresumes)
        | _ => rfl
    have hnot := call_not_mem_bodyOps ssBlacklist m _ hack hquiet
    exact hcounter _ rfl (hnot _) (by rw [count_eq_zero.2 (hnot _), hnone])

/-- **A CAP line** keeps the balance exactly if an acknowledgement finds a mechanism. -/
theorem capLine_inv (h : Inv n) (m : CMessage) :
    (Meets n (.cap m) → Inv (n.capLine ssBlacklist m)) ∧
      (Balanced (n.capLine ssBlacklist m) → Meets n (.cap m)) := by
  obtain ⟨hlength, hmod, hpauses, hresumes, hattempts⟩ := n.sasl.onResults_spec (resultsOf m)
  obtain ⟨hends, hacked, hdid, hbegins⟩ := entries_spec (resultsOf m) (n.sasl.onResults (resultsOf m)).2 hlength
  have hlog : (n.capLine ssBlacklist m).log = (((resultsOf m).zip (n.sasl.onResults (resultsOf m)).2).flatMap
      fun e => entriesOf e.1 e.2).reverse ++ n.log := rfl
  have hsasl : (n.capLine ssBlacklist m).sasl = (n.sasl.onResults (resultsOf m)).1 := rfl
  generalize ((resultsOf m).zip (n.sasl.onResults (resultsOf m)).2).flatMap (fun e => entriesOf e.1 e.2) = entries
    at hends hacked hdid hbegins hlog
  have hpause : entries.reverse.count (.did .PauseCap) = n.sasl.started (resultsOf m) := by
    rw [count_reverse, hdid, hpauses]
  have hbegin : entries.reverse.countP begins = n.sasl.started (resultsOf m) := by
    rw [countP_reverse, hbegins, hattempts]
  have hends' : ∀ uCode, .ended uCode ∉ entries.reverse := fun uCode hmem => hends uCode (mem_reverse.1 hmem)
  have hresume : entries.reverse.count (.did .ResumeCap) = 0 := by rw [count_reverse, hdid, hresumes]
  have hiff := balanced_append_iff h.balanced hlog hends' hresume
    (by rw [hpause]; exact capLine_uCapPaused ssBlacklist n m)
  rw [hpause, hbegin, count_reverse, hacked] at hiff
  have hmeets : Meets n (.cap m) ↔ ((resultsOf m).countP announces ≠ 0 → n.sasl.configured ≠ []) := by
    have hexists : (resultsOf m).countP announces ≠ 0 ↔
        ∃ result ∈ resultsOf m, result.1.equals (lit "sasl") = true ∧ result.2 = true := by
      rw [Nat.ne_zero_iff_zero_lt, countP_pos_iff]
      simp [announces]
    rw [Meets, hexists]
  rw [hmeets]
  refine ⟨fun hne => ⟨hiff.2 ⟨?_, rfl⟩, ?_, ?_⟩, fun hbalanced hsome hempty => ?_⟩
  · by_cases hzero : (resultsOf m).countP announces = 0
    · rw [CSASLMod.started, hzero, ite_self]
    · rw [CSASLMod.started, if_neg (hne hzero)]
  · intro hopen
    rw [hsasl, hmod]
    split_ifs with hzero
    · rw [hlog, opens_append hends', hbegin, CSASLMod.started, hzero, ite_self, Nat.zero_add] at hopen
      exact h.loaded hopen
    · exact hne hzero
  · intro hauth
    rw [hlog]
    apply Proven.append
    apply h.proven
    rw [hsasl, hmod] at hauth
    split_ifs at hauth
    · exact hauth
    · exact hauth
  · have hstarted := (hiff.1 hbalanced).1
    rw [CSASLMod.started, if_pos hempty] at hstarted
    exact hsome hstarted.symm

/-! ### Numerics -/

theorem onNumericMessage_other (c : CSASLMod) {uCode : ℕ} (h : endsAttempt uCode = false) :
    ∃ r, c.onNumericMessage uCode = (c, [], r) := by
  have hne : uCode ≠ 903 ∧ ¬(uCode = 904 ∨ uCode = 905) ∧ uCode ≠ 906 ∧ uCode ≠ 907 := by
    simp only [endsAttempt, decide_eq_false_iff_not, mem_cons, not_mem_nil, or_false, not_or] at h
    omega
  unfold CSASLMod.onNumericMessage
  by_cases hvs : c.m_Mechanisms.vs = []
  · exact ⟨_, dif_pos hvs⟩
  · rw [dif_neg hvs, if_neg hne.1, if_neg hne.2.1, if_neg hne.2.2.1, if_neg hne.2.2.2]
    split_ifs
    · exact ⟨_, rfl⟩
    · exact ⟨_, rfl⟩

theorem onNumericMessage_cases (c : CSASLMod) {uCode : ℕ} (hends : endsAttempt uCode = true)
    (hvs : c.m_Mechanisms.vs ≠ []) :
    ∃ after actions r, c.onNumericMessage uCode = (after, actions, r) ∧ after.m_Mechanisms.vs ≠ [] ∧
      (after.m_bAuthenticated = true → c.m_bAuthenticated = true ∨ uCode = 903 ∨ uCode = 907) ∧
      ((uCode ≠ 906 ∧ ∃ quits, (∀ a ∈ quits, isQuit a = true) ∧ actions = quits ++ [.ResumeCap]) ∨
        (uCode ≠ 906 ∧ ∃ sMechanism, actions = [.Attempt sMechanism]) ∨
        (uCode = 906 ∧ ∀ a ∈ actions, isQuit a = true)) := by
  have hcode : uCode = 903 ∨ (uCode = 904 ∨ uCode = 905) ∨ uCode = 906 ∨ uCode = 907 := by
    simp only [endsAttempt, decide_eq_true_eq, mem_cons, not_mem_nil, or_false] at hends
    omega
  unfold CSASLMod.onNumericMessage
  rw [dif_neg hvs]
  rcases hcode with h | h | h | h
  · rw [if_pos h]
    exact ⟨_, _, _, rfl, hvs, fun _ => .inr (.inl h), .inl ⟨by omega, [], by simp, rfl⟩⟩
  · rw [if_neg (by omega), if_pos h]
    split_ifs with hnext
    · exact ⟨_, _, _, rfl, hvs, fun hauth => .inl hauth, .inr (.inl ⟨by omega, _, rfl⟩)⟩
    · exact ⟨_, _, _, rfl, hvs, fun hauth => .inl hauth, .inl ⟨by omega, _, c.checkRequireAuth_quits, rfl⟩⟩
  · rw [if_neg (by omega), if_neg (by omega), if_pos h]
    exact ⟨_, _, _, rfl, hvs, fun hauth => .inl hauth, .inr (.inr ⟨h, c.checkRequireAuth_quits⟩)⟩
  · rw [if_neg (by omega), if_neg (by omega), if_neg (by omega), if_pos h]
    exact ⟨_, _, _, rfl, hvs, fun _ => .inr (.inr h), .inl ⟨by omega, [], by simp, rfl⟩⟩

theorem call_resume : (s.call .ResumeCap).uCapPaused = s.uCapPaused - 1 ∧
    (s.uCapPaused = 1 → s.bAuthed = false → ∃ e, GoesOn e ∧ (s.call .ResumeCap).log = e :: .resumed :: s.log) := by
  rw [Cap.CIRCSock.call]
  generalize hresumed : ({ s with uCapPaused := s.uCapPaused - 1, log := .resumed :: s.log } : Cap.CIRCSock) = t
  have hcounter : t.uCapPaused = s.uCapPaused - 1 := by rw [← hresumed]
  have hlog : t.log = .resumed :: s.log := by rw [← hresumed]
  have hauthed : t.bAuthed = s.bAuthed := by rw [← hresumed]
  refine ⟨(sendNextCap_uCapPaused t).trans hcounter, fun hone hauth => ?_⟩
  have hzero : t.uCapPaused = 0 := by
    rw [hcounter, hone]
    rfl
  rcases t.sendNextCap_cases with ⟨-, hidle⟩ | ⟨-, vsCaps, _, -, -, hsend⟩ | ⟨-, sCap, -, hsend⟩ | ⟨-, -, -, hsend⟩
  · rcases hidle with hpaused | ⟨-, hregistered⟩
    · exact absurd hzero hpaused
    · rw [hauthed, hauth] at hregistered
      cases hregistered
  · exact ⟨_, .inl ⟨vsCaps, rfl⟩, by rw [hsend, hlog]⟩
  · exact ⟨_, .inr (.inl ⟨sCap, rfl⟩), by rw [hsend, hlog]⟩
  · exact ⟨_, .inr (.inr rfl), by rw [hsend, hlog]⟩

/-- **A numeric** keeps the balance exactly if it aborts no attempt, and the last attempt lets the negotiation go on. -/
theorem numeric_inv (h : Inv n) {uCode : ℕ} (hserver : ServerOk n (.numeric uCode)) :
    (uCode ≠ 906 → Inv (n.numeric uCode) ∧ Proceeds n (n.numeric uCode)) ∧
      (Balanced (n.numeric uCode) → uCode ≠ 906) := by
  have hpaused := h.balanced.paused
  have hresumed := h.balanced.resumed
  have hcounter := h.balanced.counter
  cases hends : endsAttempt uCode with
  | false =>
    obtain ⟨r, hdo⟩ := onNumericMessage_other n.sasl hends
    have hsame : n.numeric uCode = n := by
      rw [numeric, hdo]
      simp [hends, perform, note]
    have hne : uCode ≠ 906 := by
      rintro rfl
      cases hends
    rw [hsame]
    exact ⟨fun _ => ⟨h, fun _ hopen hclosed => absurd hclosed hopen⟩, fun _ => hne⟩
  | true =>
    have hopen := hserver hends
    obtain ⟨after, actions, r, hdo, hvs, hauth, hcases⟩ := onNumericMessage_cases n.sasl hends (h.loaded hopen)
    have hlog : (n.numeric uCode).log = (actions.map Entry.did).reverse ++ .ended uCode :: n.log := by
      rw [numeric, hdo, hends]
      rfl
    have hsock : (n.numeric uCode).sock = (actions.filterMap Action.capCall).foldl Cap.CIRCSock.call n.sock := by
      rw [numeric, hdo, hends]
      rfl
    have hsasl : (n.numeric uCode).sasl = after := by
      rw [numeric, hdo]
    have hopens : opens (n.numeric uCode).log = actions.countP isAttempt + (opens n.log - 1) := by
      rw [hlog, opens_did]
      rfl
    have hcount : ∀ a, (n.numeric uCode).log.count (.did a) = actions.count a + n.log.count (.did a) := by
      intro a
      rw [hlog, count_append, count_reverse, count_did, count_cons_of_ne (by simp)]
    have hacked : (n.numeric uCode).log.count .acked = n.log.count .acked := by
      have hzero : (actions.map Entry.did).count .acked = 0 := count_eq_zero.2 (by simp)
      rw [hlog, count_append, count_reverse, hzero, count_cons_of_ne (by simp), Nat.zero_add]
    have hproven : (n.numeric uCode).sasl.m_bAuthenticated = true → Proven (n.numeric uCode).log := by
      intro hnow
      rw [hlog]
      apply Proven.append
      rcases hauth (hsasl ▸ hnow) with hbefore | rfl | rfl
      · exact (h.proven hbefore).append [_]
      · exact .inl mem_cons_self
      · exact .inr mem_cons_self
    have hloaded : opens (n.numeric uCode).log ≠ 0 → (n.numeric uCode).sasl.m_Mechanisms.vs ≠ [] := fun _ => hsasl ▸ hvs
    rcases hcases with ⟨hne, quits, hquits, rfl⟩ | ⟨hne, sMechanism, rfl⟩ | ⟨rfl, hquits⟩
    · obtain ⟨hpause, hresume, hattempt⟩ := counts_of_quits hquits
      have hcalls : (quits ++ [Action.ResumeCap]).filterMap Action.capCall = [.ResumeCap] := by
        rw [filterMap_append, filterMap_eq_nil_iff.2 fun a ha => (capCall_of_quit (hquits a ha)).1]
        rfl
      have hopens' : opens (n.numeric uCode).log = opens n.log - 1 := by
        rw [hopens, countP_append, hattempt]
        simp [isAttempt]
      have hsock' : (n.numeric uCode).sock = n.sock.call .ResumeCap := by
        rw [hsock, hcalls]
        rfl
      obtain ⟨hminus, hgoes⟩ := call_resume n.sock
      refine ⟨fun _ => ⟨⟨⟨?_, ?_, ?_⟩, hloaded, hproven⟩, ?_⟩, fun _ => hne⟩
      · rw [hcount, hacked, count_append, hpause, ← hpaused]
        simp
      · rw [hcount, hcount, count_append, count_append, hpause, hresume, hopens']
        simp only [count_cons_self, count_nil, count_cons_of_ne, ne_eq, reduceCtorEq, not_false_eq_true]
        omega
      · obtain ⟨k, hk⟩ : ∃ k, opens n.log = k + 1 := ⟨opens n.log - 1, by omega⟩
        rw [hsock', hminus, hcounter, hopens', hk, Nat.add_sub_cancel, UInt32.ofNat_add]
        exact UInt32.add_sub_cancel _ _
      · intro hunregistered _ hclosed
        have hone : opens n.log = 1 := by omega
        rw [hsock']
        exact hgoes (by rw [hcounter, hone]; rfl) hunregistered
    · have hopens' : opens (n.numeric uCode).log = opens n.log := by
        rw [hopens]
        simp only [countP_cons, countP_nil, isAttempt, if_true]
        omega
      refine ⟨fun _ => ⟨⟨⟨?_, ?_, ?_⟩, hloaded, hproven⟩, ?_⟩, fun _ => hne⟩
      · rw [hcount, hacked, ← hpaused]
        simp
      · rw [hcount, hcount, hopens', ← hresumed]
        simp
      · rw [hsock, hopens', ← hcounter]
        rfl
      · intro _ hbefore hafter
        exact absurd (hopens'.symm.trans hafter) hbefore
    · obtain ⟨hpause, hresume, hattempt⟩ := counts_of_quits hquits
      refine ⟨fun hne => absurd rfl hne, fun hbalanced => ?_⟩
      have hnow := hbalanced.resumed
      rw [hcount, hcount, hopens, hpause, hresume, hattempt] at hnow
      omega

/-! ### All steps -/

theorem onRawMessage_lines (c : CSASLMod) (m : CMessage) : ∀ a ∈ (c.onRawMessage m).1, ∃ sLine, a = .PutIRC sLine := by
  intro a ha
  rw [CSASLMod.onRawMessage] at ha
  by_cases hauth : m.sCommand.equals (lit "AUTHENTICATE") = true
  · rw [if_pos hauth, CSASLMod.authenticate] at ha
    by_cases hvs : c.m_Mechanisms.vs = []
    · rw [dif_pos hvs] at ha
      cases ha
    · rw [dif_neg hvs] at ha
      obtain ⟨sLine, -, rfl⟩ := mem_map.1 ha
      exact ⟨sLine, rfl⟩
  · rw [if_neg hauth] at ha
    cases ha

theorem step_inv_iff (h : Inv n) {ev : Event} (hserver : ServerOk n ev) :
    (Meets n ev → Inv (n.step ssBlacklist ev) ∧ StepOk ssBlacklist n ev) ∧
      (Balanced (n.step ssBlacklist ev) → Meets n ev) := by
  have hsame : ∀ c : CSASLMod, c.m_Mechanisms = n.sasl.m_Mechanisms → c.m_bAuthenticated = n.sasl.m_bAuthenticated →
      Inv { n with sasl := c } := by
    intro c hmechanisms hauth
    exact ⟨⟨h.balanced.paused, h.balanced.resumed, h.balanced.counter⟩, fun hopen => hmechanisms ▸ h.loaded hopen,
      fun hnow => h.proven (hauth ▸ hnow)⟩
  cases ev with
  | cap m =>
    obtain ⟨hto, hfrom⟩ := capLine_inv ssBlacklist h m
    exact ⟨fun hmeets => ⟨hto hmeets, trivial⟩, hfrom⟩
  | raw m =>
    refine ⟨fun _ => ⟨perform_inv h fun a ha => ?_, trivial⟩, fun _ => trivial⟩
    obtain ⟨sLine, rfl⟩ := onRawMessage_lines n.sasl m a ha
    exact ⟨rfl, rfl⟩
  | numeric uCode => exact numeric_inv h hserver
  | welcome =>
    have hsock : Inv { n with sock := n.sock.handle ssBlacklist .welcome } :=
      ⟨⟨h.balanced.paused, h.balanced.resumed, h.balanced.counter⟩, h.loaded, h.proven⟩
    refine ⟨fun _ => ⟨perform_inv hsock ?_, ?_⟩, fun _ => trivial⟩
    · exact fun a ha => capCall_of_quit (n.sasl.checkRequireAuth_quits a ha)
    · intro hrequired
      cases hauth : n.sasl.m_bAuthenticated with
      | true => exact .inl (h.proven hauth)
      | false =>
        right
        simp [step, perform, note, CSASLMod.checkRequireAuth, hauth, hrequired, isQuit]
  | reconnect => exact ⟨fun _ => ⟨inv_init rfl, trivial⟩, fun _ => trivial⟩
  | set sLine =>
    refine ⟨fun _ => ⟨hsame _ ?_ ?_, trivial⟩, fun _ => trivial⟩
    all_goals
      unfold CSASLMod.set
      split_ifs
      all_goals rfl
  | setMechanism sLine =>
    refine ⟨fun _ => ⟨hsame _ ?_ ?_, trivial⟩, fun _ => trivial⟩
    all_goals
      unfold CSASLMod.setMechanismCommand
      dsimp only
      split_ifs
      all_goals rfl
  | requireAuth sLine =>
    refine ⟨fun _ => ⟨hsame _ ?_ ?_, trivial⟩, fun _ => trivial⟩
    all_goals
      unfold CSASLMod.requireAuthCommand
      split_ifs
      all_goals rfl
  | web username password require_auth mechanisms =>
    exact ⟨fun _ => ⟨hsame _ rfl rfl, trivial⟩, fun _ => trivial⟩

/-! ## Runs -/

/-- in each state of the run pauses and resumes are balanced, and each step does what it has to -/
def Keeps (ssBlacklist : SCString) (n : CIRCNetwork) (evs : List Event) : Prop :=
  Runs.States (step ssBlacklist) Balanced evs n ∧
    Runs.Steps (step ssBlacklist) (StepOk ssBlacklist) evs n

/-- **Pauses and resumes are balanced in every state of a run, and registration goes on, exactly if no attempt is ended by
numeric 906 and each acknowledgement finds a mechanism in the settings.** -/
theorem pauses_balanced_iff (ssBlacklist : SCString) (username password require_auth mechanisms : CString)
    (evs : List Event)
    (hserver : Runs.Steps (step ssBlacklist) ServerOk evs
      (.init (.load username password require_auth mechanisms))) :
    Keeps ssBlacklist (.init (.load username password require_auth mechanisms)) evs ↔
      Runs.Steps (step ssBlacklist) Meets evs
        (.init (.load username password require_auth mechanisms)) := by
  apply Runs.keeps_iff (fun _ h => h.balanced) ?_ ?_ evs (inv_init rfl) hserver
  · exact fun s ev h hlegal => (step_inv_iff ssBlacklist h hlegal).1
  · exact fun s ev h hlegal hgood _ => (step_inv_iff ssBlacklist h hlegal).2 hgood

/-- the server acknowledges sasl -/
def ackLine : CMessage :=
  ⟨⟨[], [], []⟩, lit "CAP", [lit "*", lit "ACK", lit "sasl"], .empty, ⟨0, 0⟩, .Capability, true⟩

/-- the settings as they are by default -/
def defaults : CIRCNetwork := .init (.load [] [] [] [])

/-- one mechanism fails, the other one works -/
theorem keeps_retry : Keeps .empty defaults [.cap ackLine, .numeric 904, .numeric 903, .welcome] :=
  (pauses_balanced_iff .empty [] [] [] [] [.cap ackLine, .numeric 904, .numeric 903, .welcome]
    ⟨trivial, fun _ => by decide, fun _ => by decide, trivial, trivial⟩).2
      ⟨fun _ => by decide, (by decide : 904 ≠ 906), (by decide : 903 ≠ 906), trivial, trivial⟩

/-- sasl is acknowledged, and the attempt is aborted -/
def aborted : List Event := [.cap ackLine, .numeric 906]

/-- **An aborted attempt leaves the negotiation paused.** There is no attempt any more and no quit, but the socket stays
paused, and CAP END was not sent. -/
theorem aborted_hangs :
    Runs.Steps (step .empty) ServerOk aborted defaults ∧ ¬Keeps .empty defaults aborted ∧
      opens (defaults.run .empty aborted).log = 0 ∧ (defaults.run .empty aborted).bQuit = false ∧
      (defaults.run .empty aborted).sock.uCapPaused = 1 ∧ .ended ∉ (defaults.run .empty aborted).sock.log := by
  have hserver : Runs.Steps (step .empty) ServerOk aborted defaults :=
    ⟨trivial, fun _ => by decide, trivial⟩
  refine ⟨hserver, fun hkeeps => ?_, by decide, by decide, by decide, by decide⟩
  obtain ⟨-, -, hlast⟩ := hkeeps.1
  exact absurd hlast.resumed (by decide)

end ZNC.SaslPause
