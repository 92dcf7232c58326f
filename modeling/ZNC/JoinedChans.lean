/-
What the clients know about the joined channels: the JOIN, PART and KICK lines of the own nick that each client was shown,
against the flags `m_bIsOn` and `m_bDetached` of the channels.

A channel is detached and attached for all clients together, but its lines go to one client or to all of them:
`ClientConnected` shows the channels to the new client, `AttachChans` shows a channel to everybody, and a JOIN of a client
for a detached channel attaches it for that client's eyes only.

Model: `CIRCNetwork` has the channels and the attached clients with what they were shown, `Event` is a command of a client
or a line of the server, and a place of `m_vChans` stands for a `CChan *`.

Results:
- `step_inv`: what each event keeps, if it meets `EventOk`;
- `clients_agree`: in every run whose events meet `EventOk` each client knows exactly the channels that are on and not
  detached;
- `join_unseen`: one client's JOIN for a detached channel leaves the others without it.
-/
import ZNC.Lib.Distinct
import ZNC.Lib.Journal
import ZNC.Token

namespace ZNC.JoinedChans

open CString Journal List

/-! ## Model -/

/-- a line about the own nick and a channel -/
inductive ShownLine where
  | join (sChan : CString)
  | part (sChan : CString)
  | kick (sChan : CString)
deriving DecidableEq

/-- `CClient`: its address, and the lines it was shown, the newest first -/
structure CClient where
  pThis : ℕ
  shown : List ShownLine

structure CChan where
  sName : CString
  bIsOn : Bool
  bDetached : Bool
deriving DecidableEq

/-- `CIRCNetwork` with the nick, STATUSMSG and CHANTYPES of its socket and `MultiClients` of its user -/
structure CIRCNetwork where
  sNick : CString
  sStatusMsg : CString
  sChanPrefixes : CString
  bMultiClients : Bool
  vChans : List CChan
  vClients : List CClient

def CClient.putClient (client : CClient) (line : ShownLine) : CClient := { client with shown := line :: client.shown }

/-- the loop of `PutUser`: to everybody, or to the one client and no further -/
def putLoop (line : ShownLine) (pClient : Option ℕ) : List CClient → List CClient
  | [] => []
  | client :: vClients =>
    if pClient = none then client.putClient line :: putLoop line pClient vClients
    else if pClient = some client.pThis then client.putClient line :: vClients
    else client :: putLoop line pClient vClients

namespace CIRCNetwork

def putUser (net : CIRCNetwork) (line : ShownLine) (pClient : Option ℕ) : CIRCNetwork :=
  { net with vClients := putLoop line pClient net.vClients }

/-! ### Channels -/

/-- `FindChan(sName)`: the place of the channel, and the channel there -/
def findChan (net : CIRCNetwork) (sName : CString) : Option (ℕ × CChan) :=
  (net.vChans.findIdx? fun chan => (sName.trimLeft net.sStatusMsg).equals chan.sName).bind fun pChan =>
    net.vChans[pChan]?.map fun chan => (pChan, chan)

def isChan (net : CIRCNetwork) (sChan : CString) : Bool :=
  match sChan with
  | [] => false
  | c :: _ => net.sChanPrefixes = [] || c ∈ net.sChanPrefixes

/-- `CChan::CChan`: the name of the new channel -/
def chanName (net : CIRCNetwork) (sName : CString) : CString :=
  let sName := sName.token 0 false 0x20 false
  if net.isChan sName then sName else lit "#" ++ sName

/-- `AddChan(pChan)` for a new channel -/
def addChan (net : CIRCNetwork) (chan : CChan) : CIRCNetwork :=
  if net.vChans.any fun eachChan => eachChan.sName.equals chan.sName then net
  else { net with vChans := net.vChans ++ [chan] }

/-- `AddChan(sName, bInConfig)` -/
def addChanNamed (net : CIRCNetwork) (sName : CString) : CIRCNetwork :=
  if sName = [] ∨ (net.findChan sName).isSome then net
  else { net with vChans := net.vChans ++ [⟨net.chanName sName, false, false⟩] }

def delChan (net : CIRCNetwork) (sName : CString) : CIRCNetwork :=
  { net with vChans := net.vChans.eraseP fun chan => sName.equals chan.sName }

def setIsOn (net : CIRCNetwork) (pChan : ℕ) (bOn : Bool) : CIRCNetwork :=
  { net with vChans := net.vChans.modify pChan fun chan => { chan with bIsOn := bOn } }

/-- `m_bDetached = bDetached` of a channel -/
def setDetached (net : CIRCNetwork) (pChan : ℕ) (bDetached : Bool) : CIRCNetwork :=
  { net with vChans := net.vChans.modify pChan fun chan => { chan with bDetached := bDetached } }

def attachUser (net : CIRCNetwork) (pChan : ℕ) (pClient : Option ℕ) : CIRCNetwork :=
  match net.vChans[pChan]? with
  | none => net
  | some chan => (net.putUser (.join chan.sName) pClient).setDetached pChan false

def detachUser (net : CIRCNetwork) (pChan : ℕ) : CIRCNetwork :=
  match net.vChans[pChan]? with
  | none => net
  | some chan => if chan.bDetached then net else (net.putUser (.part chan.sName) none).setDetached pChan true

/-! ### Clients -/

/-- the loop of `ClientConnected` over the channels -/
def showChan (pClient : ℕ) (net : CIRCNetwork) (pChan : ℕ) : CIRCNetwork :=
  match net.vChans[pChan]? with
  | none => net
  | some chan => if chan.bIsOn && !chan.bDetached then net.attachUser pChan (some pClient) else net

def clientConnected (net : CIRCNetwork) (pClient : ℕ) : CIRCNetwork :=
  -- `BounceAllClients`
  let vClients := if net.bMultiClients then net.vClients else []
  (List.range net.vChans.length).foldl (showChan pClient) { net with vClients := vClients ++ [⟨pClient, []⟩] }

def clientDisconnected (net : CIRCNetwork) (pClient : ℕ) : CIRCNetwork :=
  { net with vClients := net.vClients.eraseP fun client => client.pThis = pClient }

/-- the loop of `CClient::OnJoinMessage` over the channels -/
def clientJoin (pClient : ℕ) (net : CIRCNetwork) (sChannel : CString) : CIRCNetwork :=
  match net.findChan sChannel with
  -- `JoinUser` only sends a line to the server
  | some (pChan, chan) => if chan.bDetached then net.attachUser pChan (some pClient) else net
  | none => if sChannel ≠ [] then net.addChan ⟨net.chanName sChannel, false, false⟩ else net

/-- the loop of `CClient::OnPartMessage` over the channels -/
def clientPart (net : CIRCNetwork) (sChan : CString) : CIRCNetwork :=
  match net.findChan sChan with
  | some (_, chan) => if chan.bIsOn then net else net.delChan sChan
  | none => net

/-- the loop of `CClient::AttachChans` -/
def attachChan (net : CIRCNetwork) (pChan : ℕ) : CIRCNetwork :=
  match net.vChans[pChan]? with
  | none => net
  | some chan => if chan.bDetached then net.attachUser pChan none else net

/-- the loop of `CClient::DetachChans` -/
def detachChan (net : CIRCNetwork) (pChan : ℕ) : CIRCNetwork :=
  match net.vChans[pChan]? with
  | none => net
  | some chan => if chan.bDetached then net else net.detachUser pChan

/-! ### Lines of the server -/

/-- `CIRCSock::OnJoinMessage`, and the line on its way to the clients; others' joins change the nicks of the channel only -/
def onJoin (net : CIRCNetwork) (sNick sChan : CString) : CIRCNetwork :=
  if sNick.equals net.sNick then
    let net := net.addChanNamed sChan
    match net.findChan sChan with
    | some (pChan, chan) =>
      let net := net.setIsOn pChan true
      if chan.bDetached then net else net.putUser (.join sChan) none
    | none => net.putUser (.join sChan) none
  else net

/-- `CIRCSock::OnPartMessage` -/
def onPart (net : CIRCNetwork) (sNick sChan : CString) : CIRCNetwork :=
  if sNick.equals net.sNick then
    let bDetached := (net.findChan sChan).any fun r => r.2.bDetached
    let net := net.delChan sChan
    if bDetached then net else net.putUser (.part sChan) none
  else net

/-- `CIRCSock::OnKickMessage` -/
def onKick (net : CIRCNetwork) (sChan sKickedNick : CString) : CIRCNetwork :=
  if net.sNick.equals sKickedNick then
    match net.findChan sChan with
    | some (pChan, chan) =>
      let net := net.setIsOn pChan false
      if chan.bDetached then net else net.putUser (.kick sChan) none
    | none => net.putUser (.kick sChan) none
  else net

end CIRCNetwork

/-! ### Runs -/

/-- what happens on a registered connection; `attach` and `detach` have the channels that match the patterns of the command,
in the order of the set -/
inductive Event where
  | connect (pClient : ℕ)
  | disconnect (pClient : ℕ)
  | clientJoin (pClient : ℕ) (sChans : CString)
  | clientPart (pClient : ℕ) (sChans : CString)
  | attach (sChans : List ℕ)
  | detach (sChans : List ℕ)
  | join (sNick sChan : CString)
  | part (sNick sChan : CString)
  | kick (sChan sKickedNick : CString)

namespace CIRCNetwork

def step (net : CIRCNetwork) : Event → CIRCNetwork
  -- a new client is not at the address of another one
  | .connect pClient =>
    if net.vClients.any fun client => client.pThis = pClient then net else net.clientConnected pClient
  | .disconnect pClient => net.clientDisconnected pClient
  | .clientJoin pClient sChans => (sChans.split (ch ',') false).foldl (clientJoin pClient) net
  | .clientPart _ sChans => (sChans.split (ch ',') false).foldl clientPart net
  | .attach sChans => sChans.foldl attachChan net
  | .detach sChans => sChans.foldl detachChan net
  | .join sNick sChan => net.onJoin sNick sChan
  | .part sNick sChan => net.onPart sNick sChan
  | .kick sChan sKickedNick => net.onKick sChan sKickedNick

end CIRCNetwork

/-- the two names are one for `Equals` -/
def SameName (c d : CChan) : Prop := c.sName.equals d.sName = true

/-- the connection is registered: nobody is attached, and no channel is joined -/
structure CIRCNetwork.Registered (net : CIRCNetwork) : Prop where
  noClients : net.vClients = []
  off : ∀ chan ∈ net.vChans, chan.bIsOn = false
  names : Distinct SameName net.vChans

/-! ## Statement -/

def ShownLine.joins (sChan : CString) : ShownLine → Bool
  | .join s => sChan.equals s
  | _ => false

def ShownLine.leaves (sChan : CString) : ShownLine → Bool
  | .join _ => false
  | .part s => sChan.equals s
  | .kick s => sChan.equals s

/-- the client was shown a JOIN of the channel, and neither PART nor KICK since -/
def CClient.Shown (client : CClient) (sChan : CString) : Prop :=
  Latest (fun line => line.joins sChan = true) (fun line => line.leaves sChan = true) client.shown

instance CClient.Shown.decidable (client : CClient) (sChan : CString) : Decidable (client.Shown sChan) :=
  Latest.decidable _ _ client.shown

namespace CIRCNetwork

/-- a channel of that name is on and not detached -/
def Joined (net : CIRCNetwork) (sChan : CString) : Prop :=
  ∃ chan ∈ net.vChans, chan.bIsOn = true ∧ chan.bDetached = false ∧ sChan.equals chan.sName = true

/-- the clients know the joined channels -/
def Agrees (net : CIRCNetwork) : Prop := ∀ client ∈ net.vClients, ∀ sChan, client.Shown sChan ↔ net.Joined sChan

/-- the name, in capitals or not, does not begin with a STATUSMSG prefix, which `FindChan` would cut off -/
def Plain (net : CIRCNetwork) (sChan : CString) : Prop := ∀ c ∈ net.sStatusMsg, tolower c ≠ tolower (sChan.deref 0)

/-- a client may join the channel: if it is detached, it is on, and nobody else is there to see it attached -/
def JoinOk (net : CIRCNetwork) (pClient : ℕ) (sChan : CString) : Prop :=
  ∀ chan ∈ net.vChans, (sChan.trimLeft net.sStatusMsg).equals chan.sName → chan.bDetached →
    chan.bIsOn ∧ ∀ client ∈ net.vClients, client.pThis = pClient

/-- the events that keep the agreement: no channel is attached that is not on, none is attached for one client while there
are others, and own JOIN and KICK lines name the channel they find -/
def EventOk (net : CIRCNetwork) : Event → Prop
  | .clientJoin pClient sChans => ∀ sChan ∈ sChans.split (ch ',') false, net.JoinOk pClient sChan
  | .attach sChans => ∀ pChan ∈ sChans, ∀ chan ∈ net.vChans[pChan]?, chan.bDetached → chan.bIsOn
  | .join sNick sChan =>
    sNick.equals net.sNick →
      (∀ r ∈ net.findChan sChan, net.Plain r.2.sName ∧ (r.2.bDetached ∨ sChan.equals r.2.sName)) ∧
        (net.findChan sChan = none → net.Plain sChan ∧ sChan.equals (net.chanName sChan))
  | .kick sChan sKickedNick =>
    net.sNick.equals sKickedNick → ∀ r ∈ net.findChan sChan, r.2.bIsOn → r.2.bDetached ∨ sChan.equals r.2.sName
  | _ => True

instance JoinOk.decidable (net : CIRCNetwork) (pClient : ℕ) (sChan : CString) : Decidable (net.JoinOk pClient sChan) :=
  inferInstanceAs (Decidable (∀ chan ∈ net.vChans, (sChan.trimLeft net.sStatusMsg).equals chan.sName → chan.bDetached →
    chan.bIsOn ∧ ∀ client ∈ net.vClients, client.pThis = pClient))

instance Plain.decidable (net : CIRCNetwork) (sChan : CString) : Decidable (net.Plain sChan) :=
  List.decidableBAll (fun c => tolower c ≠ tolower (sChan.deref 0)) net.sStatusMsg

instance EventOk.decidable (net : CIRCNetwork) : (e : Event) → Decidable (net.EventOk e)
  | .connect _ | .disconnect _ | .clientPart _ _ | .detach _ | .part _ _ => isTrue trivial
  | .clientJoin pClient sChans =>
    inferInstanceAs (Decidable (∀ sChan ∈ sChans.split (ch ',') false, net.JoinOk pClient sChan))
  | .attach sChans =>
    inferInstanceAs (Decidable (∀ pChan ∈ sChans, ∀ chan ∈ net.vChans[pChan]?, chan.bDetached → chan.bIsOn))
  | .join sNick sChan =>
    inferInstanceAs (Decidable (sNick.equals net.sNick →
      (∀ r ∈ net.findChan sChan, net.Plain r.2.sName ∧ (r.2.bDetached ∨ sChan.equals r.2.sName)) ∧
        (net.findChan sChan = none → net.Plain sChan ∧ sChan.equals (net.chanName sChan))))
  | .kick sChan sKickedNick =>
    inferInstanceAs (Decidable (net.sNick.equals sKickedNick → ∀ r ∈ net.findChan sChan, r.2.bIsOn →
      r.2.bDetached ∨ sChan.equals r.2.sName))

end CIRCNetwork

/-! ## Names -/

theorem tolower_deref_zero {s t : CString} (h : s.equals t) : tolower (s.deref 0) = tolower (t.deref 0) := by
  have hs : ∀ s : CString, tolower (s.deref 0) = s.cStr.asLower.getD 0 0 := by
    intro s
    cases s with
    | nil => rfl
    | cons c s =>
      by_cases hc : c = 0
      · simp [hc, cStr, asLower, deref]
        rfl
      · simp [hc, cStr, asLower, deref]
  have heq : s.cStr.asLower = t.cStr.asLower := by simpa [equals] using h
  rw [hs, hs, heq]

namespace CIRCNetwork

theorem Plain.of_equals {net : CIRCNetwork} {sChan sName : CString} (h : net.Plain sChan) (he : sName.equals sChan) :
    net.Plain sName := by
  intro c hc
  rw [tolower_deref_zero he]
  exact h c hc

theorem Plain.trimLeft {net : CIRCNetwork} {sName : CString} (h : net.Plain sName) :
    sName.trimLeft net.sStatusMsg = sName := by
  cases sName with
  | nil => rfl
  | cons c s =>
    have hc : c ∉ net.sStatusMsg := fun hc => h c hc rfl
    rw [CString.trimLeft, dropWhile_cons_of_neg (by simpa using hc)]

theorem findChan_some {net : CIRCNetwork} {sChan : CString} {pChan : ℕ} {chan : CChan}
    (h : net.findChan sChan = some (pChan, chan)) :
    net.vChans[pChan]? = some chan ∧ (sChan.trimLeft net.sStatusMsg).equals chan.sName := by
  obtain ⟨i, hi, hchan⟩ := Option.bind_eq_some_iff.1 h
  obtain ⟨c, hc, heq⟩ := Option.map_eq_some_iff.1 hchan
  obtain ⟨rfl, rfl⟩ := Prod.mk.inj heq
  obtain ⟨hlt, hp, -⟩ := findIdx?_eq_some_iff_getElem.1 hi
  rw [getElem?_eq_getElem hlt] at hc
  rw [← Option.some.inj hc]
  exact ⟨getElem?_eq_getElem hlt, hp⟩

theorem findChan_none {net : CIRCNetwork} {sChan : CString} (h : net.findChan sChan = none) :
    ∀ chan ∈ net.vChans, ¬(sChan.trimLeft net.sStatusMsg).equals chan.sName := by
  intro chan hchan
  cases hi : net.vChans.findIdx? fun chan => (sChan.trimLeft net.sStatusMsg).equals chan.sName with
  | none => simpa using findIdx?_eq_none_iff.1 hi chan hchan
  | some i =>
    obtain ⟨hlt, -, -⟩ := findIdx?_eq_some_iff_getElem.1 hi
    rw [findChan, hi, Option.bind_some, getElem?_eq_getElem hlt] at h
    cases h

end CIRCNetwork

/-! ## Lines to the clients -/

theorem putLoop_none (line : ShownLine) (vClients : List CClient) :
    putLoop line none vClients = vClients.map (·.putClient line) := by
  induction vClients with
  | nil => rfl
  | cons client vClients ih => rw [putLoop, if_pos rfl, ih, map_cons]

theorem putLoop_some {vClients : List CClient} (h : Distinct (fun c d : CClient => c.pThis = d.pThis) vClients)
    (line : ShownLine) (pClient : ℕ) :
    putLoop line (some pClient) vClients =
      vClients.map fun client => if client.pThis = pClient then client.putClient line else client := by
  induction vClients with
  | nil => rfl
  | cons client vClients ih =>
    obtain ⟨hclient, hrest⟩ := pairwise_cons.1 h
    by_cases hp : client.pThis = pClient
    · have hothers : vClients.map (fun c => if c.pThis = pClient then c.putClient line else c) = vClients := by
        conv_rhs => rw [← map_id vClients]
        refine map_congr_left fun c hc => ?_
        rw [if_neg fun hpc => hclient c hc (hp.trans hpc.symm), id]
      rw [putLoop, if_neg (by simp), if_pos (by rw [hp]), map_cons, if_pos hp, hothers]
    · have hne : ¬some pClient = some client.pThis := fun he => hp (Option.some.inj he).symm
      rw [putLoop, if_neg (by simp), if_neg hne, ih hrest, map_cons, if_neg hp]

theorem putLoop_pThis (line : ShownLine) (pClient : Option ℕ) (vClients : List CClient) :
    (putLoop line pClient vClients).map (·.pThis) = vClients.map (·.pThis) := by
  induction vClients with
  | nil => rfl
  | cons client vClients ih =>
    unfold putLoop
    split_ifs <;> simp [CClient.putClient, ih]

theorem shown_put (client : CClient) (line : ShownLine) (sChan : CString) :
    (client.putClient line).Shown sChan ↔ line.joins sChan ∨ (¬line.leaves sChan ∧ client.Shown sChan) := Iff.rfl

/-! ## The channels -/

theorem SameName.symm (c d : CChan) (h : SameName c d) : SameName d c := by
  rw [SameName, equals_comm]
  exact h

theorem sameName_of_equals {sName : CString} (c d : CChan) (hc : sName.equals c.sName) (hd : sName.equals d.sName) :
    SameName c d := by
  rw [equals_comm] at hc
  exact equals_trans hc hd

namespace CIRCNetwork

/-- no two channels have one name, and each channel that is on is found under its name -/
structure ChansOk (net : CIRCNetwork) : Prop where
  names : Distinct SameName net.vChans
  plain : ∀ chan ∈ net.vChans, chan.bIsOn = true → net.Plain chan.sName

variable {net : CIRCNetwork}

variable {chan : CChan}

theorem ChansOk.findChan_on (h : net.ChansOk) (hchan : chan ∈ net.vChans) (hon : chan.bIsOn = true) {sChan : CString}
    (he : sChan.equals chan.sName) : ∃ pChan, net.findChan sChan = some (pChan, chan) := by
  have htrim : sChan.trimLeft net.sStatusMsg = sChan := ((h.plain chan hchan hon).of_equals he).trimLeft
  obtain ⟨i, hi, hat⟩ := h.names.findIdx?_eq SameName.symm (p := fun chan => sChan.equals chan.sName)
    sameName_of_equals hchan he
  exact ⟨i, by rw [findChan, htrim, hi, Option.bind_some, hat, Option.map_some]⟩

theorem ChansOk.findChan_joined (h : net.ChansOk) {sChan sName : CString} (he : sName.equals sChan)
    (hj : net.Joined sName) :
    ∃ pChan chan, net.findChan sChan = some (pChan, chan) ∧ chan.bIsOn = true ∧ chan.bDetached = false ∧
      sName.equals chan.sName = true := by
  obtain ⟨chan, hchan, hon, hdet, hname⟩ := hj
  rw [equals_comm] at he
  obtain ⟨pChan, hfind⟩ := h.findChan_on hchan hon (equals_trans he hname)
  exact ⟨pChan, chan, hfind, hon, hdet, hname⟩

theorem ChansOk.eq_of_equals (h : net.ChansOk) {c d : CChan} (hc : c ∈ net.vChans)
    (hd : d ∈ net.vChans) {sChan : CString}
    (hec : sChan.equals c.sName) (hed : sChan.equals d.sName) : c = d :=
  h.names.eq_of_rel SameName.symm hc hd (sameName_of_equals c d hec hed)

theorem ChansOk.modify (h : net.ChansOk) {pChan : ℕ} (hchan : net.vChans[pChan]? = some chan) {f : CChan → CChan}
    (hf : ∀ chan, (f chan).sName = chan.sName) (hplain : (f chan).bIsOn = true → net.Plain chan.sName) :
    ({ net with vChans := net.vChans.modify pChan f } : CIRCNetwork).ChansOk where
  names := h.names.modify (fun a b hr => by rw [SameName, hf] at hr; exact hr)
    (fun a b hr => by rw [SameName, hf] at hr; exact hr)
    pChan
  plain := by
    intro c hc hon
    rcases (h.names.mem_modify SameName.symm hchan (equals_refl _) f c).1 hc with rfl | hother
    · rw [hf]
      exact hplain hon
    · exact h.plain c hother.1 hon

theorem ChansOk.joined_modify (h : net.ChansOk) {pChan : ℕ} (hchan : net.vChans[pChan]? = some chan) {f : CChan → CChan}
    (hf : ∀ chan, (f chan).sName = chan.sName) (sChan : CString) :
    ({ net with vChans := net.vChans.modify pChan f } : CIRCNetwork).Joined sChan ↔
      ((f chan).bIsOn = true ∧ (f chan).bDetached = false ∧ sChan.equals chan.sName) ∨
        (¬sChan.equals chan.sName ∧ net.Joined sChan) := by
  constructor
  · rintro ⟨c, hc, hon, hdet, he⟩
    rcases (h.names.mem_modify SameName.symm hchan (equals_refl _) f c).1 hc with rfl | ⟨hmem, hne⟩
    · rw [hf] at he
      exact .inl ⟨hon, hdet, he⟩
    · exact .inr ⟨fun he' => hne (sameName_of_equals c chan he he'), c, hmem, hon, hdet, he⟩
  · rintro (⟨hon, hdet, he⟩ | ⟨hne, c, hmem, hon, hdet, he⟩)
    · refine ⟨f chan, (h.names.mem_modify SameName.symm hchan (equals_refl _) f _).2 (.inl rfl), hon, hdet, ?_⟩
      rw [hf]
      exact he
    · refine ⟨c, (h.names.mem_modify SameName.symm hchan (equals_refl _) f c).2 (.inr ⟨hmem,
        fun hsame => hne ?_⟩), hon,
        hdet, he⟩
      exact equals_trans he hsame

theorem ChansOk.setDetached (h : net.ChansOk) {pChan : ℕ} {chan : CChan} (hchan : net.vChans[pChan]? = some chan)
    (bDetached : Bool) : (net.setDetached pChan bDetached).ChansOk :=
  h.modify (f := fun chan => { chan with bDetached := bDetached }) hchan (fun _ => rfl) fun hon =>
    h.plain chan (mem_of_getElem? hchan) hon

theorem ChansOk.joined_setDetached (h : net.ChansOk) {pChan : ℕ} (hchan : net.vChans[pChan]? = some chan)
    (bDetached : Bool) (sChan : CString) :
    (net.setDetached pChan bDetached).Joined sChan ↔
      (chan.bIsOn = true ∧ bDetached = false ∧ sChan.equals chan.sName) ∨
        (¬sChan.equals chan.sName ∧ net.Joined sChan) :=
  h.joined_modify (f := fun chan => { chan with bDetached := bDetached }) hchan (fun _ => rfl) sChan

theorem ChansOk.setIsOn (h : net.ChansOk) {pChan : ℕ} (hchan : net.vChans[pChan]? = some chan) {bOn : Bool}
    (hplain : bOn = true → net.Plain chan.sName) : (net.setIsOn pChan bOn).ChansOk :=
  h.modify (f := fun chan => { chan with bIsOn := bOn }) hchan (fun _ => rfl) hplain

theorem ChansOk.joined_setIsOn (h : net.ChansOk) {pChan : ℕ} (hchan : net.vChans[pChan]? = some chan) (bOn : Bool)
    (sChan : CString) :
    (net.setIsOn pChan bOn).Joined sChan ↔
      (bOn = true ∧ chan.bDetached = false ∧ sChan.equals chan.sName) ∨ (¬sChan.equals chan.sName ∧ net.Joined sChan) :=
  h.joined_modify (f := fun chan => { chan with bIsOn := bOn }) hchan (fun _ => rfl) sChan

theorem getElem?_of_detached {pChan i : ℕ} (hi : (net.setDetached pChan false).vChans[i]? = some chan)
    (hdet : chan.bDetached) : net.vChans[i]? = some chan := by
  rw [setDetached, getElem?_modify] at hi
  obtain ⟨c, hc, hceq⟩ := Option.map_eq_some_iff.1 hi
  split_ifs at hceq
  · rw [← hceq] at hdet
    cases hdet
  · rw [← hceq]
    exact hc

theorem setDetached_self {pChan : ℕ} (hchan : net.vChans[pChan]? = some chan) (hdet : chan.bDetached = false) :
    net.setDetached pChan false = net := by
  have hself : net.vChans.modify pChan (fun chan => { chan with bDetached := false }) = net.vChans := by
    refine ext_getElem? fun i => ?_
    rw [getElem?_modify]
    by_cases hi : pChan = i
    · rw [← hi, hchan, ← hdet]
      simp
    · simp [hi]
  rw [setDetached, hself]

theorem ChansOk.putUser (h : net.ChansOk) (line : ShownLine) (pClient : Option ℕ) :
    (net.putUser line pClient).ChansOk :=
  ⟨h.names, h.plain⟩

theorem joined_putUser (line : ShownLine) (pClient : Option ℕ) (sChan : CString) :
    (net.putUser line pClient).Joined sChan ↔ net.Joined sChan := Iff.rfl

theorem ChansOk.delChan (h : net.ChansOk) (sName : CString) : (net.delChan sName).ChansOk where
  names := h.names.eraseP _
  plain := fun chan hchan => h.plain chan (mem_of_mem_eraseP hchan)

theorem ChansOk.joined_delChan (h : net.ChansOk) (sName sChan : CString) :
    (net.delChan sName).Joined sChan ↔ net.Joined sChan ∧ ¬sChan.equals sName := by
  have hmem := h.names.mem_eraseP (p := fun chan => sName.equals chan.sName) sameName_of_equals
  constructor
  · rintro ⟨c, hc, hon, hdet, he⟩
    obtain ⟨hc, hne⟩ := (hmem c).1 hc
    refine ⟨⟨c, hc, hon, hdet, he⟩, fun hs => hne ?_⟩
    rw [equals_comm] at hs
    exact equals_trans hs he
  · rintro ⟨⟨c, hc, hon, hdet, he⟩, hne⟩
    refine ⟨c, (hmem c).2 ⟨hc, fun hs => hne ?_⟩, hon, hdet, he⟩
    rw [equals_comm] at hs
    exact equals_trans he hs

theorem ChansOk.concat (h : net.ChansOk) (hnew : ∀ c ∈ net.vChans, ¬SameName c chan) (hoff : chan.bIsOn = false) :
    ({ net with vChans := net.vChans ++ [chan] } : CIRCNetwork).ChansOk where
  names := h.names.concat hnew
  plain := by
    intro c hc hon
    rcases mem_append.1 hc with hc | hc
    · exact h.plain c hc hon
    · rw [mem_singleton.1 hc, hoff] at hon
      cases hon

theorem joined_concat (hoff : chan.bIsOn = false) (sChan : CString) :
    ({ net with vChans := net.vChans ++ [chan] } : CIRCNetwork).Joined sChan ↔ net.Joined sChan := by
  simp only [Joined, mem_append, mem_singleton]
  constructor
  · rintro ⟨c, hc | rfl, hon, hrest⟩
    · exact ⟨c, hc, hon, hrest⟩
    · rw [hoff] at hon
      cases hon
  · rintro ⟨c, hc, hrest⟩
    exact ⟨c, .inl hc, hrest⟩

/-! ## One event -/

/-- what holds at every moment of a run -/
structure Inv (net : CIRCNetwork) : Prop extends net.ChansOk where
  clients : Distinct (fun c d : CClient => c.pThis = d.pThis) net.vClients
  agree : net.Agrees

theorem Inv.quiet (h : net.Inv) {net' : CIRCNetwork} (hchans : net'.ChansOk) (hclients : net'.vClients = net.vClients)
    (hj : ∀ sChan, net'.Joined sChan ↔ net.Joined sChan) : net'.Inv where
  toChansOk := hchans
  clients := by
    rw [hclients]
    exact h.clients
  agree := by
    intro client hclient sChan
    rw [hclients] at hclient
    rw [hj]
    exact h.agree client hclient sChan

theorem Inv.shown (h : net.Inv) {net' : CIRCNetwork} (line : ShownLine) (hchans : net'.ChansOk)
    (hclients : net'.vClients = putLoop line none net.vClients)
    (hj : ∀ sChan, net'.Joined sChan ↔ line.joins sChan ∨ (¬line.leaves sChan ∧ net.Joined sChan)) : net'.Inv where
  toChansOk := hchans
  clients := by
    rw [hclients, putLoop_none, Distinct, pairwise_map]
    exact h.clients
  agree := by
    intro client hclient sChan
    rw [hclients, putLoop_none] at hclient
    obtain ⟨c, hc, rfl⟩ := mem_map.1 hclient
    rw [hj, shown_put, h.agree c hc]

/-! ### Attaching and detaching -/

theorem attachChan_inv (h : net.Inv) (pChan : ℕ) (hon : ∀ chan ∈ net.vChans[pChan]?, chan.bDetached → chan.bIsOn) :
    (net.attachChan pChan).Inv := by
  unfold attachChan attachUser
  cases hchan : net.vChans[pChan]? with
  | none => exact h
  | some chan =>
    dsimp only
    split_ifs with hdet
    · have hison : chan.bIsOn = true := hon chan hchan hdet
      have hput := h.putUser (.join chan.sName) none
      refine h.shown (.join chan.sName) (hput.setDetached hchan false) rfl fun sChan => ?_
      rw [hput.joined_setDetached hchan, joined_putUser, hison]
      by_cases he : sChan.equals chan.sName <;> simp [ShownLine.joins, ShownLine.leaves, he]
    · exact h

theorem attachChans_inv (h : net.Inv) (sChans : List ℕ)
    (hon : ∀ pChan ∈ sChans, ∀ chan ∈ net.vChans[pChan]?, chan.bDetached → chan.bIsOn) :
    (sChans.foldl attachChan net).Inv := by
  induction sChans generalizing net with
  | nil => exact h
  | cons pChan sChans ih =>
    refine ih (attachChan_inv h pChan (hon pChan mem_cons_self)) fun p hp c hc hdet => ?_
    refine hon p (mem_cons_of_mem _ hp) c ?_ hdet
    unfold attachChan attachUser at hc
    cases hchan : net.vChans[pChan]? with
    | none =>
      rw [hchan] at hc
      exact hc
    | some chan =>
      rw [hchan] at hc
      dsimp only at hc
      split_ifs at hc
      · exact getElem?_of_detached hc hdet
      · exact hc

theorem detachChan_inv (h : net.Inv) (pChan : ℕ) : (net.detachChan pChan).Inv := by
  unfold detachChan detachUser
  cases hchan : net.vChans[pChan]? with
  | none => exact h
  | some chan =>
    dsimp only
    split_ifs with hdet
    · exact h
    · have hput := h.putUser (.part chan.sName) none
      refine h.shown (.part chan.sName) (hput.setDetached hchan true) rfl fun sChan => ?_
      rw [hput.joined_setDetached hchan, joined_putUser]
      simp [ShownLine.joins, ShownLine.leaves]

theorem detachChans_inv (h : net.Inv) (sChans : List ℕ) : (sChans.foldl detachChan net).Inv := by
  induction sChans generalizing net with
  | nil => exact h
  | cons pChan sChans ih => exact ih (detachChan_inv h pChan)

/-! ### Commands of a client -/

theorem attachUser_inv (h : net.Inv) {pChan : ℕ} (hchan : net.vChans[pChan]? = some chan) (hon : chan.bIsOn = true)
    {pClient : ℕ} (honly : ∀ client ∈ net.vClients, client.pThis = pClient) :
    (net.attachUser pChan (some pClient)).Inv := by
  have hlines : putLoop (.join chan.sName) (some pClient) net.vClients =
    putLoop (.join chan.sName) none net.vClients := by
    rw [putLoop_some h.clients, putLoop_none]
    exact map_congr_left fun client hclient => if_pos (honly client hclient)
  rw [attachUser, hchan]
  have hput := h.putUser (.join chan.sName) (some pClient)
  refine h.shown (.join chan.sName) (hput.setDetached hchan false) hlines fun sChan => ?_
  rw [hput.joined_setDetached hchan, joined_putUser, hon]
  by_cases he : sChan.equals chan.sName <;> simp [ShownLine.joins, ShownLine.leaves, he]

theorem addChan_inv (h : net.Inv) (hoff : chan.bIsOn = false) : (net.addChan chan).Inv := by
  unfold addChan
  split_ifs with hany
  · exact h
  · have hnew : ∀ c ∈ net.vChans, ¬SameName c chan := by simpa [SameName] using hany
    exact h.quiet (h.concat hnew hoff) rfl (joined_concat hoff)

theorem clientJoin_inv (h : net.Inv) (pClient : ℕ) (sChannel : CString) (hok : net.JoinOk pClient sChannel) :
    (clientJoin pClient net sChannel).Inv := by
  unfold clientJoin
  cases hfind : net.findChan sChannel with
  | none =>
    dsimp only
    split_ifs
    · exact addChan_inv h rfl
    · exact h
  | some r =>
    obtain ⟨pChan, chan⟩ := r
    obtain ⟨hchan, he⟩ := findChan_some hfind
    dsimp only
    split_ifs with hdet
    · obtain ⟨hon, honly⟩ := hok chan (mem_of_getElem? hchan) he hdet
      exact attachUser_inv h hchan hon honly
    · exact h

theorem clientJoin_cases (net : CIRCNetwork) (pClient : ℕ) (sChannel : CString) :
    clientJoin pClient net sChannel = net ∨
      (∃ pChan line, clientJoin pClient net sChannel = (net.putUser line (some pClient)).setDetached pChan false) ∨
        ∃ chan, chan.bDetached = false ∧
          clientJoin pClient net sChannel = { net with vChans := net.vChans ++ [chan] } := by
  unfold clientJoin attachUser addChan
  cases hfind : net.findChan sChannel with
  | none =>
    dsimp only
    split_ifs
    · exact .inl rfl
    · exact .inr (.inr ⟨_, rfl, rfl⟩)
    · exact .inl rfl
  | some r =>
    obtain ⟨pChan, chan⟩ := r
    dsimp only
    rw [(findChan_some hfind).1]
    split_ifs
    · exact .inr (.inl ⟨pChan, _, rfl⟩)
    · exact .inl rfl

theorem clientJoin_joinOk {pClient : ℕ} {sChan : CString} (hok : net.JoinOk pClient sChan) (sChannel : CString) :
    (clientJoin pClient net sChannel).JoinOk pClient sChan := by
  intro chan hchan he hdet
  rcases clientJoin_cases net pClient sChannel with heq | ⟨pChan, line, heq⟩ | ⟨new, hnew, heq⟩
  · rw [heq] at hchan he ⊢
    exact hok chan hchan he hdet
  · rw [heq] at hchan he ⊢
    obtain ⟨i, hi⟩ := mem_iff_getElem?.1 hchan
    obtain ⟨hon, honly⟩ := hok chan (mem_of_getElem? (getElem?_of_detached hi hdet)) he hdet
    refine ⟨hon, fun client hclient => ?_⟩
    have hmem : client.pThis ∈ (putLoop line (some pClient) net.vClients).map (·.pThis) := mem_map_of_mem hclient
    rw [putLoop_pThis] at hmem
    obtain ⟨c', hc', hthis⟩ := mem_map.1 hmem
    rw [← hthis, honly c' hc']
  · rw [heq] at hchan he ⊢
    rcases mem_append.1 hchan with hchan | hchan
    · exact hok chan hchan he hdet
    · rw [mem_singleton.1 hchan, hnew] at hdet
      cases hdet

theorem clientJoins_inv (h : net.Inv) (pClient : ℕ) (vsChans : VCString)
    (hok : ∀ sChan ∈ vsChans, net.JoinOk pClient sChan) :
    (vsChans.foldl (clientJoin pClient) net).Inv := by
  induction vsChans generalizing net with
  | nil => exact h
  | cons sChan vsChans ih =>
    refine ih (clientJoin_inv h pClient sChan (hok sChan mem_cons_self)) fun sName hName => ?_
    exact clientJoin_joinOk (hok sName (mem_cons_of_mem _ hName)) sChan

theorem clientPart_inv (h : net.Inv) (sChan : CString) : (net.clientPart sChan).Inv := by
  unfold clientPart
  cases hfind : net.findChan sChan with
  | none => exact h
  | some r =>
    obtain ⟨pChan, chan⟩ := r
    dsimp only
    split_ifs with hon
    · exact h
    · refine h.quiet (h.delChan sChan) rfl fun sName => ?_
      rw [h.joined_delChan]
      refine and_iff_left_of_imp fun hj he => ?_
      -- a joined channel of that name would be the one that was found, which is not on
      obtain ⟨i, c, hi, hcon, -⟩ := h.findChan_joined he hj
      rw [hfind] at hi
      obtain ⟨-, rfl⟩ := Prod.mk.inj (Option.some.inj hi)
      exact hon hcon

theorem clientParts_inv (h : net.Inv) (vsChans : VCString) : (vsChans.foldl clientPart net).Inv := by
  induction vsChans generalizing net with
  | nil => exact h
  | cons sChan vsChans ih => exact ih (clientPart_inv h sChan)

/-! ### Clients come and go -/

theorem clientDisconnected_inv (h : net.Inv) (pClient : ℕ) : (net.clientDisconnected pClient).Inv where
  toChansOk := ⟨h.names, h.plain⟩
  clients := h.clients.eraseP _
  agree := fun client hclient => h.agree client (mem_of_mem_eraseP hclient)

/-- the network with the new client at the end of the list -/
def withClient (net : CIRCNetwork) (vClients : List CClient) (client : CClient) : CIRCNetwork :=
  { net with vClients := vClients ++ [client] }

theorem putUser_withClient {vClients : List CClient} {client : CClient} (hnew : ∀ c ∈ vClients, c.pThis ≠ client.pThis)
    (line : ShownLine) :
    (net.withClient vClients client).putUser line (some client.pThis) =
      net.withClient vClients (client.putClient line) := by
  have hloop : putLoop line (some client.pThis) (vClients ++ [client]) = vClients ++ [client.putClient line] := by
    induction vClients with
    | nil => simp [putLoop]
    | cons c vClients ih =>
      have hc : ¬some client.pThis = some c.pThis := fun he => hnew c mem_cons_self (Option.some.inj he).symm
      rw [cons_append, putLoop, if_neg (by simp), if_neg hc, ih fun d hd => hnew d (mem_cons_of_mem _ hd),
        cons_append]
  rw [putUser, withClient, hloop, withClient]

/-- the place holds a channel of that name that is on and not detached -/
def JoinedAt (net : CIRCNetwork) (sChan : CString) (pChan : ℕ) : Prop :=
  ∃ chan ∈ net.vChans[pChan]?, chan.bIsOn = true ∧ chan.bDetached = false ∧ sChan.equals chan.sName = true

theorem joined_iff (net : CIRCNetwork) (sChan : CString) :
    net.Joined sChan ↔ ∃ pChan ∈ List.range net.vChans.length, net.JoinedAt sChan pChan := by
  constructor
  · rintro ⟨chan, hchan, hrest⟩
    obtain ⟨i, hi⟩ := mem_iff_getElem?.1 hchan
    exact ⟨i, mem_range.2 (List.getElem?_eq_some_iff.1 hi).1, chan, hi, hrest⟩
  · rintro ⟨pChan, -, chan, hchan, hrest⟩
    exact ⟨chan, mem_of_getElem? hchan, hrest⟩

theorem showChan_withClient (net : CIRCNetwork) {vClients : List CClient} {client : CClient}
    (hnew : ∀ c ∈ vClients, c.pThis ≠ client.pThis)
    (pChan : ℕ) :
    ∃ client', showChan client.pThis (net.withClient vClients client) pChan = net.withClient vClients client' ∧
      client'.pThis = client.pThis ∧ ∀ sChan, client'.Shown sChan ↔ client.Shown sChan ∨ net.JoinedAt sChan pChan := by
  unfold showChan attachUser
  cases hchan : net.vChans[pChan]? with
  | none =>
    refine ⟨client, ?_, rfl, fun sChan => ?_⟩
    · rw [withClient, hchan]
    · simp [JoinedAt, hchan]
  | some chan =>
    by_cases hj : (chan.bIsOn && !chan.bDetached) = true
    · have hflags : chan.bIsOn = true ∧ chan.bDetached = false := by simpa using hj
      refine ⟨client.putClient (.join chan.sName), ?_, rfl, fun sChan => ?_⟩
      · have hat : (net.withClient vClients client).vChans[pChan]? = some chan := hchan
        rw [hat]
        dsimp only
        rw [if_pos hj, putUser_withClient hnew]
        exact setDetached_self hchan hflags.2
      · simp [shown_put, ShownLine.joins, ShownLine.leaves, JoinedAt, hchan, hflags, or_comm]
    · refine ⟨client, ?_, rfl, fun sChan => ?_⟩
      · have hat : (net.withClient vClients client).vChans[pChan]? = some chan := hchan
        rw [hat]
        dsimp only
        rw [if_neg hj]
      · have hflags : chan.bIsOn = true → chan.bDetached = false → False := by simpa using hj
        simp only [JoinedAt, hchan, Option.mem_def, Option.some.injEq, exists_eq_left']
        tauto

/-- **A new client** is shown the joined channels. -/
theorem showChans_withClient (net : CIRCNetwork) {vClients : List CClient} (client : CClient)
    (hnew : ∀ c ∈ vClients, c.pThis ≠ client.pThis)
    (pChans : List ℕ) :
    ∃ client', pChans.foldl (showChan client.pThis) (net.withClient vClients client) = net.withClient vClients client' ∧
      client'.pThis = client.pThis ∧
        ∀ sChan, client'.Shown sChan ↔ client.Shown sChan ∨ ∃ pChan ∈ pChans, net.JoinedAt sChan pChan := by
  induction pChans generalizing client with
  | nil => exact ⟨client, rfl, rfl, fun sChan => by simp⟩
  | cons pChan pChans ih =>
    obtain ⟨c1, hshow, hthis1, hshown1⟩ := showChan_withClient net hnew pChan
    obtain ⟨c2, hfold, hthis2, hshown2⟩ := ih c1 fun c hc => by rw [hthis1]; exact hnew c hc
    refine ⟨c2, ?_, hthis2.trans hthis1, fun sChan => ?_⟩
    · rw [foldl_cons, hshow, ← hthis1]
      exact hfold
    · rw [hshown2, hshown1, exists_mem_cons_iff, or_assoc]

theorem clientConnected_inv (h : net.Inv) (pClient : ℕ) (hfree : ∀ client ∈ net.vClients, client.pThis ≠ pClient) :
    (net.clientConnected pClient).Inv := by
  -- the clients who stay
  have hstay : ∀ client ∈ (if net.bMultiClients then net.vClients else []), client ∈ net.vClients := by
    intro client hclient
    split_ifs at hclient
    · exact hclient
    · cases hclient
  have hdistinct : Distinct (fun c d : CClient => c.pThis = d.pThis)
    (if net.bMultiClients then net.vClients else []) := by
    split_ifs
    · exact h.clients
    · exact .nil
  obtain ⟨client, hfold, hthis, hshown⟩ := showChans_withClient net ⟨pClient, []⟩
    (fun c hc => hfree c (hstay c hc)) (List.range net.vChans.length)
  have hconn : net.clientConnected pClient =
    net.withClient (if net.bMultiClients then net.vClients else []) client := hfold
  rw [hconn]
  refine ⟨⟨h.names, h.plain⟩, hdistinct.concat fun c hc => ?_, fun c hc sChan => ?_⟩
  · rw [hthis]
    exact hfree c (hstay c hc)
  · rcases mem_append.1 hc with hc | hc
    · exact h.agree c (hstay c hc) sChan
    · rw [mem_singleton.1 hc, hshown, ← joined_iff]
      exact or_iff_right id

/-! ### Lines of the server -/

theorem joinFound_inv (h : net.Inv) {sChan : CString} {pChan : ℕ} (hfind : net.findChan sChan = some (pChan, chan))
    (hplain : net.Plain chan.sName) (hname : chan.bDetached = true ∨ sChan.equals chan.sName = true) :
    (if chan.bDetached then net.setIsOn pChan true else (net.setIsOn pChan true).putUser (.join sChan) none).Inv := by
  obtain ⟨hchan, -⟩ := findChan_some hfind
  have hset : (net.setIsOn pChan true).ChansOk := h.setIsOn hchan fun _ => hplain
  split_ifs with hdet
  · refine h.quiet hset rfl fun sName => ?_
    rw [h.joined_setIsOn hchan, hdet]
    simp only [Bool.true_eq_false, false_and, and_false, false_or]
    refine and_iff_right_of_imp fun hj he => ?_
    -- a joined channel of that name would be this one, which is detached
    obtain ⟨c, hc, -, hcdet, hce⟩ := hj
    rw [h.eq_of_equals hc (mem_of_getElem? hchan) hce he, hdet] at hcdet
    cases hcdet
  · have he : sChan.equals chan.sName = true := hname.resolve_left hdet
    refine h.shown (.join sChan) (hset.putUser _ _) rfl fun sName => ?_
    have hsame : sName.equals chan.sName = sName.equals sChan := by
      rw [equals_comm sName, equals_comm sName, equals_congr he]
    rw [joined_putUser, h.joined_setIsOn hchan, hsame]
    by_cases hs : sName.equals sChan <;> simp [ShownLine.joins, ShownLine.leaves, hs, hdet]

theorem addChanNamed_spec (h : net.Inv) {sChan : CString} (hfind : net.findChan sChan = none) (hplain : net.Plain sChan)
    (hname : sChan.equals (net.chanName sChan)) :
    (net.addChanNamed sChan).Inv ∧ (net.addChanNamed sChan).sStatusMsg = net.sStatusMsg ∧
      (net.addChanNamed sChan).findChan sChan = some (net.vChans.length, ⟨net.chanName sChan, false, false⟩) := by
  have hempty : sChan ≠ [] := by
    rintro rfl
    have hsharp : net.chanName [] = lit "#" := rfl
    rw [hsharp] at hname
    exact absurd hname (by decide)
  have hadd : net.addChanNamed sChan = { net with vChans := net.vChans ++ [⟨net.chanName sChan, false, false⟩] } := by
    rw [addChanNamed, if_neg]
    simp [hempty, hfind]
  have hnone : ∀ c ∈ net.vChans, ¬sChan.equals c.sName := by
    intro c hc
    have hnot := findChan_none hfind c hc
    rw [hplain.trimLeft] at hnot
    exact hnot
  have hnew : ∀ c ∈ net.vChans, ¬SameName c ⟨net.chanName sChan, false, false⟩ := by
    intro c hc hsame
    exact hnone c hc (equals_trans hname (SameName.symm _ _ hsame))
  have hidx : net.vChans.findIdx? (fun chan => sChan.equals chan.sName) = none := by
    simpa using hnone
  rw [hadd]
  refine ⟨h.quiet (h.concat hnew rfl) rfl (joined_concat rfl), rfl, ?_⟩
  dsimp only [findChan]
  rw [hplain.trimLeft, findIdx?_append, hidx]
  simp [findIdx?_cons, hname]

theorem onJoin_inv (h : net.Inv) (sNick sChan : CString) (hok : net.EventOk (.join sNick sChan)) :
    (net.onJoin sNick sChan).Inv := by
  unfold onJoin
  split_ifs with hown
  · have hok' := hok hown
    dsimp only
    cases hfind : net.findChan sChan with
    | none =>
      obtain ⟨hplain, hname⟩ := hok'.2 hfind
      obtain ⟨hadd, hstatus, hfound⟩ := addChanNamed_spec h hfind hplain hname
      rw [hfound]
      refine joinFound_inv hadd hfound ?_ (.inr hname)
      rw [Plain, hstatus]
      exact hplain.of_equals (by rw [equals_comm]; exact hname)
    | some r =>
      obtain ⟨pChan, chan⟩ := r
      obtain ⟨hplain, hname⟩ := hok'.1 _ hfind
      have hadd : net.addChanNamed sChan = net := by
        rw [addChanNamed, if_pos]
        simp [hfind]
      rw [hadd, hfind]
      exact joinFound_inv h hfind hplain hname
  · exact h

theorem onPart_inv (h : net.Inv) (sNick sChan : CString) : (net.onPart sNick sChan).Inv := by
  unfold onPart
  split_ifs with hown
  · dsimp only
    split_ifs with hany
    · refine h.quiet (h.delChan sChan) rfl fun sName => ?_
      rw [h.joined_delChan]
      refine and_iff_left_of_imp fun hj he => ?_
      -- a joined channel of that name would be the one that was found, which is detached
      obtain ⟨i, c, hi, -, hcdet, -⟩ := h.findChan_joined he hj
      rw [hi, Option.any_some, hcdet] at hany
      cases hany
    · refine h.shown (.part sChan) ((h.delChan sChan).putUser _ _) rfl fun sName => ?_
      rw [joined_putUser, h.joined_delChan]
      simp [ShownLine.joins, ShownLine.leaves, and_comm]
  · exact h

theorem onKick_inv (h : net.Inv) (sChan sKickedNick : CString) (hok : net.EventOk (.kick sChan sKickedNick)) :
    (net.onKick sChan sKickedNick).Inv := by
  unfold onKick
  split_ifs with hown
  · cases hfind : net.findChan sChan with
    | none =>
      refine h.shown (.kick sChan) (h.putUser _ _) rfl fun sName => ?_
      rw [joined_putUser]
      simp only [ShownLine.joins, ShownLine.leaves, Bool.false_eq_true, false_or]
      refine (and_iff_right_of_imp fun hj he => ?_).symm
      obtain ⟨i, c, hi, -⟩ := h.findChan_joined he hj
      rw [hfind] at hi
      cases hi
    | some r =>
      obtain ⟨pChan, chan⟩ := r
      obtain ⟨hchan, -⟩ := findChan_some hfind
      have hmem : chan ∈ net.vChans := mem_of_getElem? hchan
      have hset : (net.setIsOn pChan false).ChansOk := h.setIsOn hchan fun hf => Bool.noConfusion hf
      have hjoined : ∀ sName, (net.setIsOn pChan false).Joined sName ↔ ¬sName.equals chan.sName ∧ net.Joined sName := by
        intro sName
        rw [h.joined_setIsOn hchan]
        simp
      -- a joined channel which the line names is the one that was found
      have hnamed : ∀ sName, net.Joined sName → sName.equals sChan → sName.equals chan.sName := by
        intro sName hj he
        obtain ⟨i, c, hi, -, -, hce⟩ := h.findChan_joined he hj
        rw [hfind] at hi
        obtain ⟨-, rfl⟩ := Prod.mk.inj (Option.some.inj hi)
        exact hce
      dsimp only
      split_ifs with hdet
      · refine h.quiet hset rfl fun sName => ?_
        rw [hjoined]
        refine and_iff_right_of_imp fun hj he => ?_
        obtain ⟨c, hc, -, hcdet, hce⟩ := hj
        rw [h.eq_of_equals hc hmem hce he, hdet] at hcdet
        cases hcdet
      · refine h.shown (.kick sChan) (hset.putUser _ _) rfl fun sName => ?_
        rw [joined_putUser, hjoined]
        simp only [ShownLine.joins, ShownLine.leaves, Bool.false_eq_true, false_or]
        refine and_congr_left fun hj => not_congr ⟨fun he => ?_, hnamed sName hj⟩
        -- the channel is joined, so the line names it
        obtain ⟨c, hc, hon, -, hce⟩ := hj
        rw [h.eq_of_equals hc hmem hce he] at hon
        have hline := (hok hown (pChan, chan) hfind hon).resolve_left hdet
        rw [equals_comm] at hline
        exact equals_trans he hline
  · exact h

/-! ## Runs -/

theorem step_inv (h : net.Inv) (e : Event) (hok : net.EventOk e) : (net.step e).Inv := by
  cases e with
  | connect pClient =>
    simp only [step]
    split_ifs with hany
    · exact h
    · exact clientConnected_inv h pClient (by simpa using hany)
  | disconnect pClient => exact clientDisconnected_inv h pClient
  | clientJoin pClient sChans => exact clientJoins_inv h pClient _ hok
  | clientPart _ sChans => exact clientParts_inv h _
  | attach sChans => exact attachChans_inv h sChans hok
  | detach sChans => exact detachChans_inv h sChans
  | join sNick sChan => exact onJoin_inv h sNick sChan hok
  | part sNick sChan => exact onPart_inv h sNick sChan
  | kick sChan sKickedNick => exact onKick_inv h sChan sKickedNick hok

theorem Registered.inv (h : net.Registered) : net.Inv where
  names := h.names
  plain := fun chan hchan hon => absurd hon (by rw [h.off chan hchan]; decide)
  clients := by
    rw [h.noClients]
    exact .nil
  agree := by
    intro client hclient
    rw [h.noClients] at hclient
    cases hclient

/-- **The clients know the joined channels**, all of them the same, after every event of a run whose events meet `EventOk`. -/
theorem clients_agree (net : CIRCNetwork) (hstart : net.Registered) (es : List Event)
    (hok : Along step (fun _ net e => net.EventOk e) es net) (past : List Event) (hpast : past <+: es) :
    (past.foldl step net).Agrees := by
  obtain ⟨todo, rfl⟩ := hpast
  have hpastok := ((along_append step past todo net).1 hok).1
  have hinv := along_inv step (fun e _ net (h : net.Inv) he => step_inv h e he) past net hstart.inv hpastok
  exact hinv.agree

end CIRCNetwork

/-! ### Two clients -/

/-- a network without channels -/
def newNetwork : CIRCNetwork := ⟨lit "me", lit "@+", lit "#", true, [], []⟩

theorem newNetwork_registered : newNetwork.Registered :=
  ⟨rfl, fun _ hchan => absurd hchan List.not_mem_nil, .nil⟩

/-- two clients on a channel, which one of them detaches -/
def detached : List Event := [.connect 1, .connect 2, .join (lit "me") (lit "#c"), .detach [0]]

/-- with ATTACH the channel comes back to both -/
theorem clients_agree_attach : ((detached ++ [Event.attach [0]]).foldl CIRCNetwork.step newNetwork).Agrees :=
  CIRCNetwork.clients_agree newNetwork newNetwork_registered (detached ++ [Event.attach [0]])
    (by decide) _ prefix_rfl

/-- **One client's JOIN.** The channel is attached again, but only the client who sent JOIN was shown that. -/
theorem join_unseen :
    newNetwork.Registered ∧ ¬((detached ++
      [Event.clientJoin 1 (lit "#c")]).foldl CIRCNetwork.step newNetwork).Agrees := by
  refine ⟨newNetwork_registered, fun h => ?_⟩
  have hview := h ⟨2, [.part (lit "#c"), .join (lit "#c")]⟩ (mem_cons_of_mem _ mem_cons_self) (lit "#c")
  have hjoined : ((detached ++ [Event.clientJoin 1 (lit "#c")]).foldl CIRCNetwork.step newNetwork).Joined (lit "#c") :=
    ⟨⟨lit "#c", true, false⟩, mem_cons_self, rfl, rfl, rfl⟩
  have hshown : ¬CClient.Shown ⟨2, [.part (lit "#c"), .join (lit "#c")]⟩ (lit "#c") := by decide
  exact hshown (hview.2 hjoined)

end ZNC.JoinedChans
