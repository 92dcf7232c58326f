/-
Capabilities that clients may have only while the server has them: `AddServerDependentCapability` of `src/Modules.cpp`, with
`NotifyServerDependentCap` of `src/Client.cpp` and the capabilities of `modules/corecaps.cpp`.

A module registers such a capability by name. Hooks of the module tell the clients of a network when the server accepts or
withdraws it, when the connection is registered or lost, and when a client comes or goes; a client may ask for it while the
connection has it.

Model: the sockets are those of `ZNC.Cap`, the clients those of `ZNC.ClientCaps`. What `OnClientChangedSupport` sets
(`m_bAwayNotify`, `m_bAccountNotify`, `m_bExtendedJoin`, the tag account) is one flag for each name. No other module answers
for these names. A socket is there while it is connected.

Results:
- `step_inv`, `step_exact`: a step keeps what clients have within what the server has exactly if it meets the condition;
- `server_caps_iff`: so does a run;
- `withdrawn_early`: a capability that is withdrawn before numeric 001 stays with the client.
-/
import ZNC.Cap
import ZNC.ClientCaps
import ZNC.Lib.Runs

namespace ZNC.ServerDependentCaps

open CString List Function ClientCaps Cap

/-! ## Model -/

/-- the names in `m_mServerDependentCaps`; none is a capability of the core -/
structure Registered where
  names : List CString
  notCore : ∀ sName ∈ names, coreCap sName = none

/-- those of the module corecaps -/
def corecaps : Registered where
  names := [lit "account-notify", lit "account-tag", lit "away-notify", lit "extended-join"]
  notCore := by decide

structure CClient where
  caps : ClientCaps.CClient
  /-- what `OnClientChangedSupport` was told last -/
  bSupport : CString → Bool
  pNetwork : Option ℕ

structure CIRCNetwork where
  sock : Option Cap.CIRCSock
  /-- what `OnServerChangedSupport` was told last: `m_bAwayNotify` of the socket, .. -/
  bSupport : CString → Bool
  vClients : List ℕ

structure World where
  network : ℕ → CIRCNetwork
  client : ℕ → CClient

/-- a call of `NotifyServerDependentCap` -/
structure Notice where
  sCap : CString
  bValue : Bool
  sValue : CString
deriving DecidableEq

namespace CClient

def init : CClient := ⟨.init, fun _ => false, none⟩

/-- `OnClientChangedSupport(pClient, bState)` -/
def changedSupport (c : CClient) (sName : CString) (bState : Bool) : CClient :=
  { c with bSupport := update c.bSupport sName bState }

/-- `NotifyServerDependentCap`, with the loss of the feature behind a withdrawal -/
def hear (e : Env) (c : CClient) (notice : Notice) : CClient :=
  let c := { c with caps := notifyServerDependentCap c.caps e notice.sCap notice.bValue notice.sValue }
  if notice.bValue then c else c.changedSupport notice.sCap false

def hearAll (e : Env) (c : CClient) (notices : List Notice) : CClient := notices.foldl (hear e) c

/-- `OnClientCapRequest` for one change of a request -/
def capRequest (d : Registered) (c : CClient) (ch : CString × Bool) : CClient :=
  if ch.1 ∈ d.names then c.changedSupport ch.1 ch.2 else c

end CClient

def CIRCNetwork.isServerCapAccepted (n : CIRCNetwork) (sCap : CString) : Bool :=
  match n.sock with
  | none => false
  | some s => sCap ∈ s.ssAcceptedCaps

def CIRCNetwork.getCapLsValue (n : CIRCNetwork) (sCap : CString) : CString :=
  match n.sock with
  | none => []
  | some s => (s.msCapLsValues.find sCap).getD []

/-- a withdrawal or an offer, as a client of the network hears of it -/
def CIRCNetwork.notice (n : CIRCNetwork) (bValue : Bool) (sCap : CString) : Notice :=
  ⟨sCap, bValue, n.getCapLsValue sCap⟩

/-! ### Hooks -/

section

variable (d : Registered)

/-- what clients hear when the connection is lost, and a client when it leaves -/
def onIRCDisconnected (n : CIRCNetwork) : List Notice := d.names.map (n.notice false)

def onClientDetached : List Notice := d.names.map fun sName => ⟨sName, false, []⟩

/-- what clients hear at numeric 001, and a client when it comes -/
def accepted (n : CIRCNetwork) : List Notice := (d.names.filter (n.isServerCapAccepted ·)).map (n.notice true)

/-- the capabilities that a line withdraws -/
def withdrawn (m : CMessage) : VCString :=
  if sSubCmd m = lit "NAK" then if (vsTokens m).length = 1 then [sArgs m] else []
  else if sSubCmd m = lit "DEL" then vsTokens m
  else []

/-- the results that a line makes `OnCapabilityMessage` announce -/
def results (m : CMessage) : List (CString × Bool) :=
  if sSubCmd m = lit "ACK" then (vsTokens m).map (·, true) else (withdrawn m).map (·, false)

/-- what clients hear of a CAP line of the server -/
def lineNotices (ssServerCapBlacklist : SCString) (n : CIRCNetwork) (s : Cap.CIRCSock) (m : CMessage) : List Notice :=
  if sSubCmd m = lit "LS" ∨ sSubCmd m = lit "NEW" then
    -- `OnServerCap302Available`: it is accepted already, and there may be another value
    (((vsTokens m).map capOf).filter fun cap =>
      cap.1 ∉ ssServerCapBlacklist ∧ cap.1 ∈ d.names ∧ n.isServerCapAccepted cap.1 = true).map fun cap =>
        ⟨cap.1, true, cap.2⟩
  else if s.bAuthed then ((results m).filter (·.1 ∈ d.names)).map fun result => n.notice result.2 result.1
  else []

end

namespace World

def setNetwork (w : World) (i : ℕ) (n : CIRCNetwork) : World := { w with network := update w.network i n }

def setClient (w : World) (j : ℕ) (c : CClient) : World := { w with client := update w.client j c }

/-- `NotifyClientsAboutServerDependentCap` for all of the notices: the clients of a network are all different -/
def tell (env : ℕ → Env) (w : World) (i : ℕ) (notices : List Notice) : World :=
  { w with client := fun j =>
      if j ∈ (w.network i).vClients then (w.client j).hearAll (env j) notices else w.client j }

/-- a CAP line of the server; `answers` is what other modules reply -/
def serverCap (d : Registered) (env : ℕ → Env) (ssServerCapBlacklist : SCString) (w : World) (i : ℕ)
    (m : CMessage) (answers : List Answer) : World :=
  match (w.network i).sock with
  | none => w
  | some s =>
    let w := w.tell env i (lineNotices d ssServerCapBlacklist (w.network i) s m)
    w.setNetwork i { w.network i with
      sock := some (s.onCapabilityMessage ssServerCapBlacklist m answers)
      bSupport := ((results m).filter (·.1 ∈ d.names)).foldl (fun b result => update b result.1 result.2)
        (w.network i).bSupport }

def welcome (d : Registered) (env : ℕ → Env) (w : World) (i : ℕ) : World :=
  match (w.network i).sock with
  | none => w
  | some s =>
    let w := w.setNetwork i { w.network i with sock := some { s with bAuthed := true } }
    w.tell env i (accepted d (w.network i))

/-- `Disconnected()` and the destructor of the socket -/
def ircDisconnect (d : Registered) (env : ℕ → Env) (w : World) (i : ℕ) : World :=
  if (w.network i).sock.isNone then w
  else
    let w := w.tell env i (onIRCDisconnected d (w.network i))
    w.setNetwork i { w.network i with sock := none, bSupport := fun _ => false }

/-- `ClientDisconnected(pClient)` -/
def leave (w : World) (j : ℕ) : World :=
  match (w.client j).pNetwork with
  | none => w
  | some i => w.setNetwork i { w.network i with vClients := (w.network i).vClients.erase j }

/-- `ClientConnected(pClient)` with `OnClientAttached`; without `MultiClients` the others are bounced -/
def attach (d : Registered) (env : ℕ → Env) (bMultiClients : Bool) (w : World) (j : ℕ)
    (pNetwork : Option ℕ) :
    World :=
  match pNetwork with
  | none => w.setClient j { w.client j with pNetwork := none }
  | some i =>
    let w := w.setNetwork i { w.network i with
      vClients := (if bMultiClients then (w.network i).vClients else []) ++ [j] }
    w.setClient j ({ w.client j with pNetwork := some i }.hearAll (env j) (accepted d (w.network i)))

/-- `OnClientDetached` -/
def detach (d : Registered) (env : ℕ → Env) (w : World) (j : ℕ) : World :=
  match (w.client j).pNetwork with
  | none => w
  | some _ => w.setClient j ((w.client j).hearAll (env j) (onClientDetached d))

/-- `AcceptLogin`, up to `SetNetwork(m_pNetwork, false)`: a client logs in once -/
def login (d : Registered) (env : ℕ → Env) (bMultiClients : Bool) (w : World) (j : ℕ) (pNetwork : Option ℕ) :
    World :=
  if (w.client j).pNetwork = none then w.attach d env bMultiClients j pNetwork else w

/-- `SetNetwork(pNetwork)` -/
def jump (d : Registered) (env : ℕ → Env) (bMultiClients : Bool) (w : World) (j : ℕ) (pNetwork : Option ℕ) :
    World :=
  ((w.leave j).detach d env j).attach d env bMultiClients j pNetwork

/-- the modules' answers to a client, those for the registered names among them -/
def answersTo (d : Registered) (w : World) (j : ℕ) (e : Env) : Env :=
  { e with isClientCapSupported := fun sCap bState =>
      if sCap ∈ d.names then
        !bState || (match (w.client j).pNetwork with
          | none => false
          | some i => (w.network i).isServerCapAccepted sCap)
      else e.isClientCapSupported sCap bState }

def clientCap (d : Registered) (env : ℕ → Env) (w : World) (j : ℕ) (m : CMessage) : World :=
  let e := w.answersTo d j (env j)
  let c := { w.client j with caps := handleCap (w.client j).caps e m }
  -- the requests come behind LS and END in the chain of subcommands
  if (m.getParam 0).equals (lit "REQ") && (changes m).all (supported e) then
    w.setClient j ((changes m).foldl (CClient.capRequest d) c)
  else w.setClient j c

/-- `Disconnected()` of a client; the object is gone -/
def clientGone (w : World) (j : ℕ) : World := (w.leave j).setClient j .init

end World

open World

inductive Event where
  | ircConnect (i : ℕ)
  | ircDisconnect (i : ℕ)
  | serverCap (i : ℕ) (m : CMessage) (answers : List Answer)
  /-- numeric 001 -/
  | welcome (i : ℕ)
  | login (bMultiClients : Bool) (j : ℕ) (pNetwork : Option ℕ)
  | jump (bMultiClients : Bool) (j : ℕ) (pNetwork : Option ℕ)
  | clientCap (j : ℕ) (m : CMessage)
  | clientGone (j : ℕ)

/-- an event, with what the rest of ZNC is meanwhile -/
structure Moment where
  env : ℕ → Env
  ssServerCapBlacklist : SCString
  event : Event

namespace World

def init : World := ⟨fun _ => ⟨none, fun _ => false, []⟩, fun _ => .init⟩

def step (d : Registered) (w : World) (ev : Moment) : World :=
  match ev.event with
  | .ircConnect i =>
    match (w.network i).sock with
    | none => w.setNetwork i { w.network i with sock := some .init }
    | some _ => w
  | .ircDisconnect i => w.ircDisconnect d ev.env i
  | .serverCap i m answers => w.serverCap d ev.env ev.ssServerCapBlacklist i m answers
  | .welcome i => w.welcome d ev.env i
  | .login bMultiClients j pNetwork => w.login d ev.env bMultiClients j pNetwork
  | .jump bMultiClients j pNetwork => w.jump d ev.env bMultiClients j pNetwork
  | .clientCap j m => w.clientCap d ev.env j m
  | .clientGone j => w.clientGone j

end World

/-! ## What the capabilities are for -/

/-- a registered capability that a client of a network has is accepted on the network's connection -/
def Within (d : Registered) (w : World) : Prop :=
  ∀ i, ∀ j ∈ (w.network i).vClients, ∀ sName ∈ d.names,
    sName ∈ (w.client j).caps.ssAcceptedCaps → (w.network i).isServerCapAccepted sName = true

/-- the capabilities of a network that an event withdraws -/
def withdraws (d : Registered) (w : World) (i : ℕ) : Event → VCString
  | .serverCap i' m _ => if i' = i ∧ ((w.network i).sock).isSome then withdrawn m else []
  | .ircDisconnect i' => if i' = i ∧ ((w.network i).sock).isSome then d.names else []
  | _ => []

/-- a client of the network that has a withdrawn capability loses it, and its feature -/
def Loses (d : Registered) (w : World) (ev : Moment) : Prop :=
  ∀ i, ∀ sName ∈ withdraws d w i ev.event, sName ∈ d.names → ∀ j ∈ (w.network i).vClients,
    sName ∈ (w.client j).caps.ssAcceptedCaps →
      sName ∉ ((w.step d ev).client j).caps.ssAcceptedCaps ∧ ((w.step d ev).client j).bSupport sName = false

/-- a line before numeric 001 withdraws no registered capability that a client of the network has -/
def Meets (d : Registered) (w : World) (ev : Moment) : Prop :=
  match ev.event with
  | .serverCap i m _ =>
    match (w.network i).sock with
    | none => True
    | some s => s.bAuthed = false → ∀ sName ∈ withdrawn m, sName ∈ d.names →
        ∀ j ∈ (w.network i).vClients, sName ∉ (w.client j).caps.ssAcceptedCaps
  | _ => True

/-! ## Clients -/

namespace CClient

variable (e : Env) (c : CClient)

theorem hear_accepted (notice : Notice) (sName : CString) (h : sName ∈ (c.hear e notice).caps.ssAcceptedCaps) :
    sName ∈ c.caps.ssAcceptedCaps ∧ (notice.bValue = false → sName ≠ notice.sCap) := by
  have hcaps : (c.hear e notice).caps =
      notifyServerDependentCap c.caps e notice.sCap notice.bValue notice.sValue := by
    simp only [hear]
    split_ifs
    · rfl
    · rfl
  rw [hcaps, notifyServerDependentCap] at h
  by_cases hnew : (notice.bValue && decide (notice.sCap ∉ e.ssClientCapBlacklist)) = true
  · rw [if_pos hnew] at h
    have hvalue : notice.bValue = true := (Bool.and_eq_true _ _ ▸ hnew).1
    refine ⟨?_, fun hfalse => absurd (hvalue.symm.trans hfalse) (by decide)⟩
    split_ifs at h
    · exact h
    · exact h
    · exact h
  · rw [if_neg hnew] at h
    simp only [OrdSet.mem_erase] at h
    refine ⟨?_, fun _ => h.1⟩
    have hmem := h.2
    split_ifs at hmem
    · exact hmem
    · exact hmem

theorem hear_bSupport (notice : Notice) (sName : CString) :
    (c.hear e notice).bSupport sName =
      if notice.bValue = false ∧ sName = notice.sCap then false else c.bSupport sName := by
  simp only [hear]
  by_cases hvalue : notice.bValue = true
  · rw [if_pos hvalue, if_neg (by simp [hvalue])]
  · simp only [hvalue, Bool.false_eq_true, if_false, changedSupport, update_apply]
    by_cases hname : sName = notice.sCap
    · simp [hname]
    · simp [hname]

@[simp] theorem hear_pNetwork (notice : Notice) :
    (c.hear e notice).pNetwork = c.pNetwork := by
  simp only [hear]
  split_ifs
  · rfl
  · rfl

@[simp] theorem hearAll_pNetwork (notices : List Notice) :
    (c.hearAll e notices).pNetwork = c.pNetwork := by
  induction notices generalizing c with
  | nil => rfl
  | cons notice notices ih => exact (ih (c.hear e notice)).trans (c.hear_pNetwork e notice)

theorem hearAll_accepted (notices : List Notice) {sName : CString}
    (h : sName ∈ (c.hearAll e notices).caps.ssAcceptedCaps) :
    sName ∈ c.caps.ssAcceptedCaps ∧ ∀ notice ∈ notices, notice.bValue = false → sName ≠ notice.sCap := by
  induction notices generalizing c with
  | nil => exact ⟨h, fun notice hnotice => nomatch hnotice⟩
  | cons notice notices ih =>
    obtain ⟨hmem, hrest⟩ := ih (c.hear e notice) h
    obtain ⟨hbefore, hhead⟩ := c.hear_accepted e notice sName hmem
    refine ⟨hbefore, fun x hx => ?_⟩
    rcases mem_cons.1 hx with rfl | hx
    · exact hhead
    · exact hrest x hx

theorem hearAll_bSupport (notices : List Notice) (sName : CString)
    (h : c.bSupport sName = false ∨ ∃ notice ∈ notices, notice.bValue = false ∧ sName = notice.sCap) :
    (c.hearAll e notices).bSupport sName = false := by
  induction notices generalizing c with
  | nil =>
    rcases h with h | ⟨notice, hnotice, -⟩
    · exact h
    · cases hnotice
  | cons notice notices ih =>
    apply ih
    rw [hear_bSupport]
    by_cases hhead : notice.bValue = false ∧ sName = notice.sCap
    · exact .inl (if_pos hhead)
    · rw [if_neg hhead]
      rcases h with h | ⟨x, hx, hoff⟩
      · exact .inl h
      · rcases mem_cons.1 hx with rfl | hx
        · exact absurd hoff hhead
        · exact .inr ⟨x, hx, hoff⟩

end CClient

theorem handleCap_accepted (s : ClientCaps.CClient) (e : Env) (m : CMessage) {sCap : CString}
    (h : sCap ∈ (handleCap s e m).ssAcceptedCaps) :
    sCap ∈ s.ssAcceptedCaps ∨ (coreCap sCap).isSome = true ∨ e.isClientCapSupported sCap true = true := by
  by_cases hreq : (m.getParam 0).equals (lit "REQ") = true
  · have hcap : handleCap s e m = capReq s e m := by
      simp only [handleCap, not_equals_of_req hreq (lit "LS") (by decide),
        not_equals_of_req hreq (lit "END") (by decide), hreq, if_true, Bool.false_eq_true, if_false]
    rw [hcap] at h
    rcases capReq_spec s e m with hacked | hrefused
    · have hlast := hacked.accepted sCap
      rw [decide_eq_true h] at hlast
      cases hwrite : LastWrite.lastWrite (fun k => decide (k = sCap)) (changes m) with
      | none =>
        rw [hwrite, Option.getD_none] at hlast
        exact .inl (of_decide_eq_true hlast.symm)
      | some b =>
        rw [hwrite, Option.getD_some] at hlast
        obtain ⟨⟨k, v⟩, hmem, hk, hv⟩ := LastWrite.mem_of_lastWrite hwrite
        obtain rfl : k = sCap := of_decide_eq_true hk
        obtain rfl : v = true := hv.trans hlast.symm
        have hsupported := hacked.supported _ hmem
        rw [supported, Bool.and_eq_true, Bool.or_eq_true] at hsupported
        exact .inr hsupported.1
    · rw [hrefused.kept] at h
      exact .inl h
  · left
    rw [handleCap] at h
    simp only [hreq, Bool.false_eq_true, if_false] at h
    split_ifs at h
    · rw [capLs] at h
      dsimp only at h
      split_ifs at h
      · obtain ⟨sent, hsent⟩ := respondLines_eq (ClientCaps.CClient.setFeature { s with
          uCapVersion := max s.uCapVersion (m.getParam 1).toUShort
          bInCap := true } .capNotify true) e (lit "LS") (multiLine (offer { s with
          uCapVersion := max s.uCapVersion (m.getParam 1).toUShort } e))
        rw [hsent] at h
        exact h
      · exact h
    · rw [capEnd] at h
      split_ifs at h
      · exact h
      · exact h
    · rw [capList] at h
      split_ifs at h
      · obtain ⟨sent, hsent⟩ :=
          respondLines_eq s e (lit "LIST") (multiLine s.ssAcceptedCaps.toList)
        rw [hsent] at h
        exact h
      · exact h
    · exact h

/-! ## The socket -/

theorem sendNextCap_accepted (s : Cap.CIRCSock) : s.sendNextCap.ssAcceptedCaps = s.ssAcceptedCaps := by
  rcases s.sendNextCap_cases with ⟨h, -⟩ | ⟨-, _, _, -, -, h⟩ | ⟨-, _, -, h⟩ | ⟨-, -, -, h⟩
  all_goals rw [h]

theorem exec_accepted (s : Cap.CIRCSock) (op : Cap.Op) (sCap : CString) :
    sCap ∈ (s.exec op).ssAcceptedCaps ↔ op = .accept sCap ∨ (op ≠ .remove sCap ∧ sCap ∈ s.ssAcceptedCaps) := by
  cases op with
  | accept sCap' =>
    obtain ⟨b1, b2, b3, b4, hset⟩ := s.setSupported_eq sCap' true
    simp [Cap.CIRCSock.exec, hset, eq_comm]
  | remove sCap' =>
    obtain ⟨b1, b2, b3, b4, hset⟩ := s.setSupported_eq sCap' false
    simp [Cap.CIRCSock.exec, hset, eq_comm]
  | call c =>
    cases c with
    | PauseCap => simp [Cap.CIRCSock.exec, Cap.CIRCSock.call]
    | ResumeCap => simp [Cap.CIRCSock.exec, Cap.CIRCSock.call, sendNextCap_accepted]
  | sendNext => simp [Cap.CIRCSock.exec, sendNextCap_accepted]
  | hear h => simp [Cap.CIRCSock.exec, Cap.CIRCSock.hear]
  | list sCap' sValue => simp [Cap.CIRCSock.exec]
  | want sCap' => simp [Cap.CIRCSock.exec]
  | unlist sCap' => simp [Cap.CIRCSock.exec]
  | retryLater sCap' => simp [Cap.CIRCSock.exec]
  | welcome => simp [Cap.CIRCSock.exec]

theorem foldl_exec_keeps (ops : List Cap.Op) {s : Cap.CIRCSock} {sCap : CString} (hops : .remove sCap ∉ ops)
    (h : sCap ∈ s.ssAcceptedCaps) : sCap ∈ (ops.foldl Cap.CIRCSock.exec s).ssAcceptedCaps := by
  induction ops generalizing s with
  | nil => exact h
  | cons op ops ih =>
    rw [mem_cons, not_or] at hops
    exact ih hops.2 ((exec_accepted s op sCap).2 (.inr ⟨fun hop => hops.1 hop.symm, h⟩))

theorem foldl_exec_removes (ops : List Cap.Op) {s : Cap.CIRCSock} {sCap : CString} (hadd : .accept sCap ∉ ops)
    (h : .remove sCap ∈ ops ∨ sCap ∉ s.ssAcceptedCaps) : sCap ∉ (ops.foldl Cap.CIRCSock.exec s).ssAcceptedCaps := by
  induction ops generalizing s with
  | nil =>
    rcases h with h | h
    · cases h
    · exact h
  | cons op ops ih =>
    rw [mem_cons, not_or] at hadd
    apply ih hadd.2
    rw [exec_accepted]
    rcases h with h | h
    · rcases mem_cons.1 h with hop | h
      · right
        rintro (hadded | ⟨hkept, -⟩)
        · exact hadd.1 hadded.symm
        · exact hkept hop.symm
      · exact .inl h
    · right
      rintro (hadded | ⟨-, hmem⟩)
      · exact hadd.1 hadded.symm
      · exact h hmem

theorem remove_mem_bodyOps (ssBlacklist : SCString) (m : CMessage) (answers : List Answer) (sCap : CString) :
    .remove sCap ∈ bodyOps ssBlacklist m answers ↔ sCap ∈ withdrawn m := by
  have hoffer : ∀ tokens answers, .remove sCap ∉ offerOps ssBlacklist tokens answers := by
    intro tokens
    induction tokens with
    | nil => simp [offerOps]
    | cons sToken tokens ih =>
      intro answers
      simp only [offerOps]
      split_ifs
      · simpa using ih answers
      · simpa [hookOps] using ih answers.tail
      · simpa [hookOps] using ih answers.tail
  have haccept : ∀ caps answers, .remove sCap ∉ acceptOps caps answers := by
    intro caps
    induction caps with
    | nil => simp [acceptOps]
    | cons c caps ih =>
      intro answers
      simpa [acceptOps, hookOps] using ih answers.tail
  have hdelete : ∀ caps answers, .remove sCap ∈ deleteOps caps answers ↔ sCap ∈ caps := by
    intro caps
    induction caps with
    | nil => simp [deleteOps]
    | cons c caps ih =>
      intro answers
      simpa [deleteOps, hookOps] using or_congr_right (ih answers.tail)
  have hls : lit "LS" ≠ lit "NAK" ∧ lit "LS" ≠ lit "DEL" ∧ lit "NEW" ≠ lit "NAK" ∧ lit "NEW" ≠ lit "DEL" ∧
      lit "ACK" ≠ lit "NAK" ∧ lit "ACK" ≠ lit "DEL" := by decide
  obtain ⟨hls1, hls2, hnew1, hnew2, hack1, hack2⟩ := hls
  unfold bodyOps withdrawn
  by_cases hoffers : sSubCmd m = lit "LS" ∨ sSubCmd m = lit "NEW"
  · have hnak : sSubCmd m ≠ lit "NAK" := by
      rcases hoffers with h | h
      · rwa [h]
      · rwa [h]
    have hdel : sSubCmd m ≠ lit "DEL" := by
      rcases hoffers with h | h
      · rwa [h]
      · rwa [h]
    rw [if_pos hoffers, if_neg hnak, if_neg hdel]
    exact iff_of_false (hoffer _ _) not_mem_nil
  · rw [if_neg hoffers]
    by_cases hack : sSubCmd m = lit "ACK"
    · have hnak : sSubCmd m ≠ lit "NAK" := by rwa [hack]
      have hdel : sSubCmd m ≠ lit "DEL" := by rwa [hack]
      rw [if_pos hack, if_neg hnak, if_neg hdel]
      exact iff_of_false (haccept _ _) not_mem_nil
    · rw [if_neg hack]
      split_ifs
      · simp [hookOps]
      · simp
      · exact hdelete _ _
      · simp

theorem sSubCmd_of_withdrawn {m : CMessage} (hne : withdrawn m ≠ []) :
    ¬(sSubCmd m = lit "LS" ∨ sSubCmd m = lit "NEW") ∧ sSubCmd m ≠ lit "ACK" := by
  have hnone : ∀ w, w ≠ lit "NAK" → w ≠ lit "DEL" → sSubCmd m ≠ w := by
    intro w hnak hdel hw
    exact hne (by rw [withdrawn, hw, if_neg hnak, if_neg hdel])
  exact ⟨not_or.2 ⟨hnone _ (by decide) (by decide), hnone _ (by decide) (by decide)⟩, hnone _ (by decide) (by decide)⟩

theorem accept_not_mem_bodyOps (ssBlacklist : SCString) (m : CMessage) (answers : List Answer)
    (hne : withdrawn m ≠ [])
    (sCap : CString) : .accept sCap ∉ bodyOps ssBlacklist m answers := by
  have hdelete : ∀ caps answers, .accept sCap ∉ deleteOps caps answers := by
    intro caps
    induction caps with
    | nil => simp [deleteOps]
    | cons c caps ih =>
      intro answers
      simpa [deleteOps, hookOps] using ih answers.tail
  obtain ⟨hoffers, hack⟩ := sSubCmd_of_withdrawn hne
  rw [bodyOps, if_neg hoffers, if_neg hack]
  split_ifs
  · simp [hookOps]
  · simp
  · exact hdelete _ _
  · simp

section

variable (ssBlacklist : SCString) (s : Cap.CIRCSock) (m : CMessage) (answers : List Answer) {sCap : CString}

theorem line_keeps (hsCap : sCap ∉ withdrawn m) (h : sCap ∈ s.ssAcceptedCaps) :
    sCap ∈ (s.onCapabilityMessage ssBlacklist m answers).ssAcceptedCaps := by
  rw [Cap.CIRCSock.onCapabilityMessage_eq_ops]
  apply foldl_exec_keeps _ _ h
  rw [opsOf, lineOps, mem_append, mem_append, remove_mem_bodyOps]
  rintro (hheard | hbody | hend)
  · simp at hheard
  · exact hsCap hbody
  · split_ifs at hend
    · cases hend
    · simp at hend

theorem line_removes (hsCap : sCap ∈ withdrawn m) :
    sCap ∉ (s.onCapabilityMessage ssBlacklist m answers).ssAcceptedCaps := by
  rw [Cap.CIRCSock.onCapabilityMessage_eq_ops]
  have hbody := accept_not_mem_bodyOps ssBlacklist m answers (ne_nil_of_mem hsCap) sCap
  refine foldl_exec_removes _ ?_ (.inl ?_)
  · rw [opsOf, lineOps, mem_append, mem_append]
    rintro (hheard | hmem | hend)
    · simp at hheard
    · exact hbody hmem
    · split_ifs at hend
      · cases hend
      · simp at hend
  · rw [opsOf, lineOps, mem_append, mem_append, remove_mem_bodyOps]
    exact .inr (.inl hsCap)

end

/-! ## Steps -/

/-- what holds between two steps -/
structure Inv (d : Registered) (w : World) : Prop where
  listed : ∀ i, ∀ j ∈ (w.network i).vClients, (w.client j).pNetwork = some i
  distinct : ∀ i, (w.network i).vClients.Nodup
  outside : ∀ j, (w.client j).pNetwork = none → ∀ sName ∈ d.names, sName ∉ (w.client j).caps.ssAcceptedCaps
  within : Within d w

theorem inv_init (d : Registered) : Inv d init where
  listed := fun _ _ hj => nomatch hj
  distinct := fun _ => nodup_nil
  outside := fun _ _ _ _ hmem => OrdSet.not_mem_empty _ hmem
  within := fun _ _ hj => nomatch hj

section

variable (w : World) (i j : ℕ)

theorem setNetwork_apply (n : CIRCNetwork) (k : ℕ) : (w.setNetwork i n).network k = if k = i then n else w.network k :=
  update_apply ..

theorem setClient_apply (c : CClient) (k : ℕ) : (w.setClient j c).client k = if k = j then c else w.client k :=
  update_apply ..

theorem tell_client (env : ℕ → Env) (notices : List Notice) :
    ((w.tell env i notices).client j).pNetwork = (w.client j).pNetwork ∧
      ∀ sName, sName ∈ ((w.tell env i notices).client j).caps.ssAcceptedCaps →
        sName ∈ (w.client j).caps.ssAcceptedCaps ∧ (j ∈ (w.network i).vClients →
          ∀ notice ∈ notices, notice.bValue = false → sName ≠ notice.sCap) := by
  simp only [World.tell]
  split_ifs with hj
  · exact ⟨CClient.hearAll_pNetwork _ _ _, fun sName hmem =>
      ⟨(CClient.hearAll_accepted _ _ _ hmem).1, fun _ => (CClient.hearAll_accepted _ _ _ hmem).2⟩⟩
  · exact ⟨rfl, fun sName hmem => ⟨hmem, fun h => absurd h hj⟩⟩

end

variable {d : Registered} {w after : World} {i j : ℕ}

/-- **A step that tells the clients of a network something**, and leaves the lists of clients as they are. -/
theorem Inv.of_tell (h : Inv d w) {env : ℕ → Env} {notices : List Notice}
    (hclient : after.client = (w.tell env i notices).client)
    (hlists : ∀ k, (after.network k).vClients = (w.network k).vClients)
    (hothers : ∀ k, k ≠ i → after.network k = w.network k)
    (hhere : ∀ sName ∈ d.names, (w.network i).isServerCapAccepted sName = true →
      (after.network i).isServerCapAccepted sName = true ∨
        (∃ notice ∈ notices, notice.bValue = false ∧ sName = notice.sCap) ∨
        ∀ k ∈ (w.network i).vClients, sName ∉ (w.client k).caps.ssAcceptedCaps) : Inv d after where
  listed := fun k c hc => by
    rw [hclient, (tell_client w i c env notices).1]
    exact h.listed k c (hlists k ▸ hc)
  distinct := fun k => hlists k ▸ h.distinct k
  outside := fun c hc sName hsName hmem => by
    rw [hclient] at hc hmem
    obtain ⟨hplace, hbefore⟩ := tell_client w i c env notices
    exact h.outside c (hplace.symm.trans hc) sName hsName (hbefore sName hmem).1
  within := fun k c hc sName hsName hmem => by
    rw [hlists k] at hc
    rw [hclient] at hmem
    obtain ⟨hbefore, hheard⟩ := (tell_client w i c env notices).2 sName hmem
    have haccepted := h.within k c hc sName hsName hbefore
    by_cases hk : k = i
    · subst hk
      rcases hhere sName hsName haccepted with hkept | ⟨notice, hnotice, hoff, rfl⟩ | hnone
      · exact hkept
      · exact absurd rfl (hheard hc notice hnotice hoff)
      · exact absurd hbefore (hnone c hc)
    · rw [hothers k hk]
      exact haccepted

theorem withdrawn_mem_lineNotices (ssBlacklist : SCString) (n : CIRCNetwork) {s : Cap.CIRCSock} {m : CMessage}
    (hauthed : s.bAuthed = true) {sName : CString} (hsName : sName ∈ d.names) (hwithdrawn : sName ∈ withdrawn m) :
    n.notice false sName ∈ lineNotices d ssBlacklist n s m := by
  obtain ⟨hoffers, hack⟩ := sSubCmd_of_withdrawn (ne_nil_of_mem hwithdrawn)
  rw [lineNotices, if_neg hoffers, if_pos hauthed, results, if_neg hack]
  refine mem_map.2 ⟨(sName, false), mem_filter.2 ⟨?_, decide_eq_true hsName⟩, rfl⟩
  exact mem_map.2 ⟨sName, hwithdrawn, rfl⟩

theorem withdrawn_unregistered (ssBlacklist : SCString) (n : CIRCNetwork) {s : Cap.CIRCSock} {m : CMessage}
    (hauthed : s.bAuthed = false) (hne : withdrawn m ≠ []) : lineNotices d ssBlacklist n s m = [] := by
  obtain ⟨hoffers, -⟩ := sSubCmd_of_withdrawn hne
  rw [lineNotices, if_neg hoffers, hauthed]
  rfl

/-- **A CAP line of the server** that meets the condition. -/
theorem serverCap_inv (h : Inv d w) (env : ℕ → Env) (ssBlacklist : SCString) (m : CMessage)
    (answers : List Answer) (hmeets : Meets d w ⟨env, ssBlacklist, .serverCap i m answers⟩) :
    Inv d (w.serverCap d env ssBlacklist i m answers) := by
  unfold serverCap
  simp only [Meets] at hmeets
  cases hsock : (w.network i).sock with
  | none => exact h
  | some s =>
    rw [hsock] at hmeets
    refine @Inv.of_tell _ _ _ i h env (lineNotices d ssBlacklist (w.network i) s m) rfl ?_ ?_ ?_
    · intro k
      rw [setNetwork_apply]
      split_ifs with hk
      · rw [hk]
        rfl
      · rfl
    · intro k hk
      rw [setNetwork_apply, if_neg hk]
      rfl
    · intro sName hsName haccepted
      have hmem : sName ∈ s.ssAcceptedCaps := by
        rw [CIRCNetwork.isServerCapAccepted, hsock] at haccepted
        exact of_decide_eq_true haccepted
      by_cases hwithdrawn : sName ∈ withdrawn m
      · cases hauthed : s.bAuthed with
        | true =>
          exact .inr (.inl ⟨_,
            withdrawn_mem_lineNotices ssBlacklist (w.network i) hauthed hsName hwithdrawn, rfl, rfl⟩)
        | false => exact .inr (.inr (hmeets hauthed sName hwithdrawn hsName))
      · left
        rw [setNetwork_apply, if_pos rfl]
        exact decide_eq_true (line_keeps ssBlacklist s m answers hwithdrawn hmem)

/-- **Where it does not meet the condition,** a client is left with a capability that the server withdrew. -/
theorem serverCap_exact (env : ℕ → Env) (ssBlacklist : SCString) (m : CMessage) (answers : List Answer)
    (hwithin : Within d (w.serverCap d env ssBlacklist i m answers)) :
    Meets d w ⟨env, ssBlacklist, .serverCap i m answers⟩ := by
  simp only [Meets]
  cases hsock : (w.network i).sock with
  | none => trivial
  | some s =>
    intro hauthed sName hwithdrawn hsName j hj hmem
    have hafter : w.serverCap d env ssBlacklist i m answers =
        (w.tell env i []).setNetwork i { w.network i with
          sock := some (s.onCapabilityMessage ssBlacklist m answers)
          bSupport := ((results m).filter (·.1 ∈ d.names)).foldl (fun b result => update b result.1 result.2)
            (w.network i).bSupport } := by
      simp only [serverCap, hsock]
      rw [withdrawn_unregistered ssBlacklist (w.network i) hauthed (ne_nil_of_mem hwithdrawn)]
      rfl
    have hclient : ((w.serverCap d env ssBlacklist i m answers).client j) = w.client j := by
      rw [hafter]
      exact if_pos hj
    have hnetwork := congrArg (fun w : World => w.network i) hafter
    simp only [setNetwork_apply, if_pos] at hnetwork
    have haccepted := hwithin i j (by rw [hnetwork]; exact hj) sName hsName (by rw [hclient]; exact hmem)
    rw [hnetwork] at haccepted
    exact line_removes ssBlacklist s m answers hwithdrawn (of_decide_eq_true haccepted)

theorem welcome_inv (h : Inv d w) (env : ℕ → Env) : Inv d (w.welcome d env i) := by
  unfold welcome
  cases hsock : (w.network i).sock with
  | none => exact h
  | some s =>
    have hsame : ∀ sName, ({ w.network i with sock := some { s with bAuthed := true } } : CIRCNetwork).isServerCapAccepted
        sName = (w.network i).isServerCapAccepted sName := by
      intro sName
      simp only [CIRCNetwork.isServerCapAccepted, hsock]
    refine @Inv.of_tell d w _ i h env
      (accepted d ((w.setNetwork i { w.network i with sock := some { s with bAuthed := true } }).network i))
      (funext fun j => ?_) ?_ ?_ ?_
    · simp only [World.tell, setNetwork_apply, if_true]
      rfl
    · intro k
      simp only [World.tell, setNetwork_apply]
      split_ifs with hk
      · rw [hk]
      · rfl
    · intro k hk
      simp only [World.tell, setNetwork_apply, if_neg hk]
    · intro sName _ haccepted
      left
      simp only [World.tell, setNetwork_apply, if_true]
      rw [hsame, haccepted]

theorem mem_onIRCDisconnected (n : CIRCNetwork) {sName : CString} (h : sName ∈ d.names) :
    n.notice false sName ∈ onIRCDisconnected d n := mem_map_of_mem h

theorem ircDisconnect_inv (h : Inv d w) (env : ℕ → Env) : Inv d (w.ircDisconnect d env i) := by
  unfold ircDisconnect
  split_ifs
  · exact h
  · refine @Inv.of_tell _ _ _ i h env (onIRCDisconnected d (w.network i)) rfl ?_ ?_ ?_
    · intro k
      simp only [setNetwork_apply]
      split_ifs with hk
      · rw [hk]
        rfl
      · rfl
    · intro k hk
      simp only [setNetwork_apply, if_neg hk]
      rfl
    · intro sName hsName _
      exact .inr (.inl ⟨_, mem_onIRCDisconnected (w.network i) hsName, rfl, rfl⟩)

theorem ircConnect_inv (h : Inv d w) (hsock : (w.network i).sock = none) :
    Inv d (w.setNetwork i { w.network i with sock := some .init }) where
  listed := fun k j hj => by
    simp only [setNetwork_apply] at hj
    split_ifs at hj with hk
    · exact hk ▸ h.listed i j hj
    · exact h.listed k j hj
  distinct := fun k => by
    simp only [setNetwork_apply]
    split_ifs
    · exact h.distinct i
    · exact h.distinct k
  outside := h.outside
  within := fun k j hj sName hsName hmem => by
    simp only [setNetwork_apply] at hj ⊢
    split_ifs at hj ⊢ with hk
    · have hnone := h.within i j hj sName hsName hmem
      rw [CIRCNetwork.isServerCapAccepted, hsock] at hnone
      cases hnone
    · exact h.within k j hj sName hsName hmem

/-! ### Clients that come and go -/

/-- a client that is on no list, and has none of the capabilities -/
structure Apart (d : Registered) (w : World) (j : ℕ) : Prop where
  unlisted : ∀ i, j ∉ (w.network i).vClients
  bare : ∀ sName ∈ d.names, sName ∉ (w.client j).caps.ssAcceptedCaps

theorem leave_spec (h : Inv d w) (j : ℕ) :
    Inv d (w.leave j) ∧ (w.leave j).client = w.client ∧ ∀ i, j ∉ ((w.leave j).network i).vClients := by
  unfold leave
  cases hplace : (w.client j).pNetwork with
  | none =>
    refine ⟨h, rfl, fun i hj => ?_⟩
    have hlisted := h.listed i j hj
    rw [hplace] at hlisted
    cases hlisted
  | some i =>
    have hsub : ∀ k c, c ∈ ((w.setNetwork i { w.network i with vClients := (w.network i).vClients.erase j }).network
        k).vClients → c ∈ (w.network k).vClients := by
      intro k c hc
      simp only [setNetwork_apply] at hc
      split_ifs at hc with hk
      · rw [hk]
        exact mem_of_mem_erase hc
      · exact hc
    refine ⟨⟨fun k c hc => h.listed k c (hsub k c hc), fun k => ?_, h.outside, fun k c hc sName hsName hmem => ?_⟩, rfl,
      fun k hj => ?_⟩
    · simp only [setNetwork_apply]
      split_ifs
      · exact (h.distinct i).erase j
      · exact h.distinct k
    · have hbefore := h.within k c (hsub k c hc) sName hsName hmem
      simp only [setNetwork_apply]
      split_ifs with hk
      · exact hk ▸ hbefore
      · exact hbefore
    · have hk : some k = some i := (h.listed k j (hsub k j hj)).symm.trans hplace
      obtain rfl := Option.some.inj hk
      simp only [setNetwork_apply, if_true] at hj
      exact (h.distinct k).not_mem_erase hj

theorem setClient_inv (h : Inv d w) (hunlisted : ∀ i, j ∉ (w.network i).vClients) {c : CClient}
    (hbare : c.pNetwork = none → ∀ sName ∈ d.names, sName ∉ c.caps.ssAcceptedCaps) : Inv d (w.setClient j c) where
  listed := fun i k hk => by
    have hne : k ≠ j := by
      rintro rfl
      exact hunlisted i hk
    rw [setClient_apply, if_neg hne]
    exact h.listed i k hk
  distinct := h.distinct
  outside := fun k hk sName hsName => by
    rw [setClient_apply] at hk ⊢
    split_ifs at hk ⊢
    · exact hbare hk sName hsName
    · exact h.outside k hk sName hsName
  within := fun i k hk sName hsName hmem => by
    have hne : k ≠ j := by
      rintro rfl
      exact hunlisted i hk
    rw [setClient_apply, if_neg hne] at hmem
    exact h.within i k hk sName hsName hmem

theorem detach_spec (h : Inv d w) (hunlisted : ∀ i, j ∉ (w.network i).vClients) (env : ℕ → Env) :
    Inv d (w.detach d env j) ∧ Apart d (w.detach d env j) j := by
  unfold detach
  cases hplace : (w.client j).pNetwork with
  | none => exact ⟨h, hunlisted, h.outside j hplace⟩
  | some i =>
    have hbare : ∀ sName ∈ d.names,
      sName ∉ ((w.client j).hearAll (env j) (onClientDetached d)).caps.ssAcceptedCaps := by
      intro sName hsName hmem
      exact (CClient.hearAll_accepted _ _ _ hmem).2 ⟨sName, false, []⟩ (mem_map_of_mem hsName) rfl rfl
    refine ⟨setClient_inv h hunlisted fun _ => hbare, hunlisted, fun sName hsName => ?_⟩
    simp only [setClient_apply, if_true]
    exact hbare sName hsName

theorem attach_list (h : Inv d w) (hapart : Apart d w j) {before : List ℕ} (hnodup : before.Nodup)
    (hbefore : ∀ k ∈ before, k ∈ (w.network i).vClients) {c : CClient} (hplace : c.pNetwork = some i)
    (hbare : ∀ sName ∈ d.names, sName ∉ c.caps.ssAcceptedCaps) :
    Inv d ((w.setNetwork i { w.network i with vClients := before ++ [j] }).setClient j c) := by
  have hlists : ∀ k, (((w.setNetwork i { w.network i with vClients := before ++
                                                            [j] }).setClient j c).network k).vClients =
      if k = i then before ++ [j] else (w.network k).vClients := by
    intro k
    simp only [setClient, setNetwork_apply]
    split_ifs
    · rfl
    · rfl
  have hold : ∀ k m, m ≠ j → (m ∈ if k = i then before ++ [j] else (w.network k).vClients) →
      m ∈ (w.network k).vClients := by
    intro k m hm hmem
    split_ifs at hmem with hk
    · rcases mem_append.1 hmem with hmem | hmem
      · exact hk ▸ hbefore m hmem
      · exact absurd (mem_singleton.1 hmem) hm
    · exact hmem
  exact {
    listed := fun k m hm => by
      rw [hlists] at hm
      rw [setClient_apply]
      split_ifs with hmj
      · subst hmj
        split_ifs at hm with hk
        · rw [hk, hplace]
        · exact absurd hm (hapart.unlisted k)
      · exact h.listed k m (hold k m hmj hm)
    distinct := fun k => by
      rw [hlists]
      split_ifs
      · refine nodup_append.2 ⟨hnodup, nodup_singleton j, fun a ha b hb hab => ?_⟩
        rw [mem_singleton.1 hb] at hab
        exact hapart.unlisted i (hbefore j (hab ▸ ha))
      · exact h.distinct k
    outside := fun m hm sName hsName => by
      rw [setClient_apply] at hm ⊢
      split_ifs at hm ⊢
      · exact hbare sName hsName
      · exact h.outside m hm sName hsName
    within := fun k m hm sName hsName hmem => by
      rw [hlists] at hm
      rw [setClient_apply] at hmem
      split_ifs at hmem with hmj
      · exact absurd hmem (hbare sName hsName)
      · have haccepted := h.within k m (hold k m hmj hm) sName hsName hmem
        simp only [setClient, setNetwork_apply]
        split_ifs with hk
        · exact hk ▸ haccepted
        · exact haccepted }

theorem attach_inv (h : Inv d w) (hapart : Apart d w j) (env : ℕ → Env) (bMultiClients : Bool)
    (pNetwork : Option ℕ) : Inv d (w.attach d env bMultiClients j pNetwork) := by
  cases pNetwork with
  | none => exact setClient_inv h hapart.unlisted fun _ => hapart.bare
  | some i =>
    apply attach_list h hapart
    · cases bMultiClients with
      | true => exact h.distinct i
      | false => exact nodup_nil
    · cases bMultiClients with
      | true => exact fun k hk => hk
      | false => exact fun k hk => nomatch hk
    · exact CClient.hearAll_pNetwork _ _ _
    · exact fun sName hsName hmem => hapart.bare sName hsName (CClient.hearAll_accepted _ _ _ hmem).1

/-! ### Requests of clients -/

theorem capRequest_foldl (d : Registered) (changes : List (CString × Bool)) (c : CClient) :
    (changes.foldl (CClient.capRequest d) c).caps = c.caps ∧
      (changes.foldl (CClient.capRequest d) c).pNetwork = c.pNetwork := by
  induction changes generalizing c with
  | nil => exact ⟨rfl, rfl⟩
  | cons ch changes ih =>
    obtain ⟨hcaps, hplace⟩ := ih (c.capRequest d ch)
    have hone : (c.capRequest d ch).caps = c.caps ∧ (c.capRequest d ch).pNetwork = c.pNetwork := by
      unfold CClient.capRequest
      split_ifs
      · exact ⟨rfl, rfl⟩
      · exact ⟨rfl, rfl⟩
    exact ⟨hcaps.trans hone.1, hplace.trans hone.2⟩

theorem clientCap_inv (h : Inv d w) (env : ℕ → Env) (m : CMessage) : Inv d (w.clientCap d env j m) := by
  obtain ⟨c, hafter, hcaps, hplace⟩ : ∃ c, w.clientCap d env j m = w.setClient j c ∧
      c.caps = handleCap (w.client j).caps (w.answersTo d j (env j)) m ∧
      c.pNetwork = (w.client j).pNetwork := by
    simp only [clientCap]
    split_ifs
    · obtain ⟨hcaps, hplace⟩ := capRequest_foldl d (changes m)
        { w.client j with caps := handleCap (w.client j).caps (w.answersTo d j (env j)) m }
      exact ⟨_, rfl, hcaps, hplace⟩
    · exact ⟨_, rfl, rfl, rfl⟩
  -- what is new is accepted on the connection of the client
  have hnew : ∀ sName ∈ d.names, sName ∈ c.caps.ssAcceptedCaps → sName ∈ (w.client j).caps.ssAcceptedCaps ∨
      ∃ i, (w.client j).pNetwork = some i ∧ (w.network i).isServerCapAccepted sName = true := by
    intro sName hsName hmem
    rw [hcaps] at hmem
    rcases handleCap_accepted _ _ _ hmem with hbefore | hcore | hsupported
    · exact .inl hbefore
    · rw [d.notCore sName hsName] at hcore
      cases hcore
    · right
      simp only [answersTo, if_pos hsName, Bool.not_true, Bool.false_or] at hsupported
      cases hnetwork : (w.client j).pNetwork with
      | none =>
        rw [hnetwork] at hsupported
        cases hsupported
      | some i =>
        rw [hnetwork] at hsupported
        exact ⟨i, rfl, hsupported⟩
  rw [hafter]
  exact {
    listed := fun i k hk => by
      rw [setClient_apply]
      split_ifs with hkj
      · rw [hplace]
        exact hkj ▸ h.listed i k hk
      · exact h.listed i k hk
    distinct := h.distinct
    outside := fun k hk sName hsName hmem => by
      rw [setClient_apply] at hk hmem
      split_ifs at hk hmem
      · rw [hplace] at hk
        rcases hnew sName hsName hmem with hbefore | ⟨i, hi, -⟩
        · exact h.outside j hk sName hsName hbefore
        · rw [hk] at hi
          cases hi
      · exact h.outside k hk sName hsName hmem
    within := fun i k hk sName hsName hmem => by
      rw [setClient_apply] at hmem
      split_ifs at hmem with hkj
      · subst hkj
        rcases hnew sName hsName hmem with hbefore | ⟨i', hi', haccepted⟩
        · exact h.within i k hk sName hsName hbefore
        · obtain rfl := Option.some.inj (hi'.symm.trans (h.listed i k hk))
          exact haccepted
      · exact h.within i k hk sName hsName hmem }

/-! ### All steps -/

theorem step_inv (h : Inv d w) (ev : Moment) (hmeets : Meets d w ev) : Inv d (w.step d ev) ∧ Loses d w ev := by
  obtain ⟨env, ssBlacklist, event⟩ := ev
  cases event with
  | ircConnect i =>
    refine ⟨?_, fun k sName hwithdrawn => nomatch hwithdrawn⟩
    simp only [step]
    cases hsock : (w.network i).sock with
    | none => exact ircConnect_inv h hsock
    | some s => exact h
  | ircDisconnect i =>
    refine ⟨ircDisconnect_inv h env, fun k sName hwithdrawn hsName j hj _ => ?_⟩
    simp only [withdraws] at hwithdrawn
    split_ifs at hwithdrawn with hk
    · obtain ⟨rfl, hsock⟩ := hk
      have hsome : ¬(w.network i).sock.isNone = true := by
        rw [Option.isNone_iff_eq_none]
        intro hnone
        rw [hnone] at hsock
        cases hsock
      simp only [step, ircDisconnect, if_neg hsome]
      have hclient : ((w.tell env i (onIRCDisconnected d (w.network i))).client j) =
          (w.client j).hearAll (env j) (onIRCDisconnected d (w.network i)) := if_pos hj
      have hnotice := mem_onIRCDisconnected (w.network i) hsName
      refine ⟨fun hmem => ?_, ?_⟩
      · exact ((tell_client w i j env _).2 sName hmem).2 hj _ hnotice rfl rfl
      · have hoff := CClient.hearAll_bSupport (env j) (w.client j) (onIRCDisconnected d (w.network i)) sName
          (.inr ⟨_, hnotice, rfl, rfl⟩)
        exact (congrArg (fun c : CClient => c.bSupport sName) hclient).trans hoff
    · cases hwithdrawn
  | serverCap i m answers =>
    refine ⟨serverCap_inv h env ssBlacklist m answers hmeets, fun k sName hwithdrawn hsName j hj hmem => ?_⟩
    simp only [withdraws] at hwithdrawn
    split_ifs at hwithdrawn with hk
    · obtain ⟨rfl, hsome⟩ := hk
      obtain ⟨s, hsock⟩ := Option.isSome_iff_exists.1 hsome
      simp only [Meets, hsock] at hmeets
      have hauthed : s.bAuthed = true := by
        by_contra hnot
        exact hmeets (Bool.eq_false_iff.2 hnot) sName hwithdrawn hsName j hj hmem
      have hnotice := withdrawn_mem_lineNotices ssBlacklist (w.network i) hauthed hsName hwithdrawn
      simp only [step, serverCap, hsock]
      have hclient : ((w.tell env i (lineNotices d ssBlacklist (w.network i) s m)).client j) =
          (w.client j).hearAll (env j) (lineNotices d ssBlacklist (w.network i) s m) := if_pos hj
      refine ⟨fun hstill => ?_, ?_⟩
      · exact ((tell_client w i j env _).2 sName hstill).2 hj _ hnotice rfl rfl
      · have hoff := CClient.hearAll_bSupport (env j) (w.client j) (lineNotices d ssBlacklist (w.network i) s m) sName
          (.inr ⟨_, hnotice, rfl, rfl⟩)
        exact (congrArg (fun c : CClient => c.bSupport sName) hclient).trans hoff
    · cases hwithdrawn
  | welcome i => exact ⟨welcome_inv h env, fun k sName hwithdrawn => nomatch hwithdrawn⟩
  | login bMultiClients j pNetwork =>
    refine ⟨?_, fun k sName hwithdrawn => nomatch hwithdrawn⟩
    simp only [step, login]
    split_ifs with hplace
    · refine attach_inv h ⟨fun i hj => ?_, h.outside j hplace⟩ env bMultiClients pNetwork
      have hlisted := h.listed i j hj
      rw [hplace] at hlisted
      cases hlisted
    · exact h
  | jump bMultiClients j pNetwork =>
    refine ⟨?_, fun k sName hwithdrawn => nomatch hwithdrawn⟩
    obtain ⟨hleft, -, hunlisted⟩ := leave_spec h j
    obtain ⟨hdetached, hapart⟩ := detach_spec hleft hunlisted env
    exact attach_inv hdetached hapart env bMultiClients pNetwork
  | clientCap j m => exact ⟨clientCap_inv h env m, fun k sName hwithdrawn => nomatch hwithdrawn⟩
  | clientGone j =>
    refine ⟨?_, fun k sName hwithdrawn => nomatch hwithdrawn⟩
    obtain ⟨hleft, -, hunlisted⟩ := leave_spec h j
    exact setClient_inv hleft hunlisted fun _ sName _ => OrdSet.not_mem_empty sName

theorem step_exact (ev : Moment) (hwithin : Within d (w.step d ev)) : Meets d w ev := by
  obtain ⟨env, ssBlacklist, event⟩ := ev
  cases event with
  | serverCap i m answers => exact serverCap_exact env ssBlacklist m answers hwithin
  | _ => trivial

/-! ## Runs -/

/-- **In every state of a run clients have only what the server has, and withdrawals reach them,** exactly if no line before
numeric 001 withdraws a registered capability that a client of the network has. -/
theorem server_caps_iff (d : Registered) (evs : List Moment) :
    (Runs.States (step d) (Within d) evs .init ∧ Runs.Steps (step d) (Loses d) evs .init) ↔
      Runs.Steps (step d) (Meets d) evs .init :=
  @Runs.keeps_iff _ _ _ (Inv d) (Within d) (fun _ _ => True) (Loses d) (Meets d) (fun _ h => h.within)
    (fun _ ev h _ hmeets => step_inv h ev hmeets) (fun _ ev _ _ hwithin _ => step_exact ev hwithin) evs .init
    (inv_init d) (Runs.steps_iff.2 fun _ _ _ _ => trivial)

/-- a CAP line, and what the rest of ZNC is then -/
def capLine (sSubCmd sArgs : String) : CMessage :=
  ⟨⟨[], [], []⟩, lit "CAP", [lit "*", lit sSubCmd, lit sArgs], .empty, ⟨0, 0⟩, .Capability, true⟩

def quiet (event : Event) : Moment :=
  ⟨fun _ => ⟨[], false, .empty, .empty, id, fun _ _ => false, fun _ _ => []⟩, .empty, event⟩

/-- the request of a client for away-notify -/
def request : Event := .clientCap 1 ⟨⟨[], [], []⟩, lit "CAP", [lit "REQ", lit "away-notify"], .empty,
    ⟨0, 0⟩, .Unknown, true⟩

/-- a client asks for away-notify when the server has acknowledged it, before numeric 001, and the server withdraws it -/
def early : List Moment :=
  [quiet (.login true 1 (some 0)), quiet (.ircConnect 0), quiet (.serverCap 0 (capLine "ACK" "away-notify") []),
    quiet request, quiet (.serverCap 0 (capLine "DEL" "away-notify") [])]

/-- **A capability that is withdrawn before numeric 001 stays with the client.** -/
theorem withdrawn_early :
    ¬(Runs.States (step corecaps) (Within corecaps) early .init ∧
      Runs.Steps (step corecaps) (Loses corecaps) early .init) := by
  have hclient : lit "away-notify" ∈
    ((early.foldl (step corecaps) .init).client 1).caps.ssAcceptedCaps := by decide
  have hlisted : 1 ∈ ((early.foldl (step corecaps) .init).network 0).vClients := by decide
  have hserver : ((early.foldl (step corecaps) .init).network 0).isServerCapAccepted
    (lit "away-notify") = false := by
    decide
  rintro ⟨hstates, -⟩
  have hlast := Runs.states_iff.1 hstates early [] (append_nil _).symm
  exact Bool.false_ne_true (hserver.symm.trans (hlast 0 1 hlisted (lit "away-notify") (by decide) hclient))

end ZNC.ServerDependentCaps
