/-
The capabilities of a client: `CoreCaps`, CAP and `NotifyServerDependentCap` of `src/Client.cpp`.

A client asks for capabilities by name. A name of `CoreCaps` switches a feature of the client on or off, and some features have
a second name for older clients; what was accepted is kept by name.

Results:
- `handleCap_req`: a request is answered with ACK and the last change of each name and of each feature is what it leaves, or
  with NAK and nothing is changed;
- `run_exact_iff`: in which runs each feature is on exactly if one of its names is accepted;
- `run_alias_fails`: a run in which a feature is switched off through one of its two names.

Model:
- `Env` is what the rest of ZNC answers during one line: the nick, the configured blacklist, the modules and their mechanisms;
- the login that CAP END may start is in `ZNC.ClientLogin`.
-/
import ZNC.ISupport
import ZNC.Lib.Journal
import ZNC.Lib.LastWrite

namespace ZNC.ClientCaps

open CString LastWrite List

/-! ## State -/

/-- the features that `CoreCaps` switches: `m_bNamesx`, `m_bUHNames` and so on -/
inductive Feature where
  | namesx
  | uhNames
  | echoMessage
  | messageTagCap
  | serverTime
  | batch
  | capNotify
  | inviteNotify
  | chgHost
  | saslCap
  | selfMessage
deriving DecidableEq, Repr

structure CClient where
  uCapVersion : UInt16
  bInCap : Bool
  /-- `m_bNamesx`, .. -/
  bFeature : Feature → Bool
  ssAcceptedCaps : SCString
  ssSupportedTags : SCString
  sSASLMechanism : CString
  sSASLBuffer : CString
  /-- the lines to the client, oldest first -/
  vsSent : VCString

/-- the rest of ZNC, while one line is handled -/
structure Env where
  /-- `GetNick()` -/
  sNick : CString
  bAttached : Bool
  ssClientCapBlacklist : SCString
  ssMechanisms : SCString
  onClientCapLs : SCString → SCString
  isClientCapSupported : CString → Bool → Bool
  /-- the calls of `SetTagSupport` in `OnClientCapRequest` -/
  onClientCapRequest : CString → Bool → List (CString × Bool)

namespace CClient

def init : CClient := ⟨0, false, fun _ => false, .empty, .empty, [], [], []⟩

def putClient (s : CClient) (sLine : CString) : CClient := { s with vsSent := s.vsSent ++ [sLine] }

def respondCap (s : CClient) (e : Env) (sResponse : CString) : CClient :=
  s.putClient (lit ":irc.znc.in CAP " ++ e.sNick ++ lit " " ++ sResponse)

def setFeature (s : CClient) (f : Feature) (bVal : Bool) : CClient :=
  { s with bFeature := fun g => if g = f then bVal else s.bFeature g }

def setTagSupport (s : CClient) (sTag : CString) (bState : Bool) : CClient :=
  { s with ssSupportedTags := if bState then s.ssSupportedTags.insert sTag else s.ssSupportedTags.erase sTag }

def hasCap302 (s : CClient) : Bool := 302 ≤ s.uCapVersion

def isDuringSASL (s : CClient) : Bool := s.sSASLMechanism ≠ []

def abortSASL (s : CClient) (sFullIRCLine : CString) : CClient :=
  { s.putClient sFullIRCLine with sSASLMechanism := [], sSASLBuffer := [] }

/-- the line with which CAP ends an exchange -/
def abortLine (e : Env) : CString := lit ":irc.znc.in 904 " ++ e.sNick ++ lit " :SASL authentication aborted"

end CClient

open ZNC.ClientCaps.CClient

/-! ## `CoreCaps` -/

/-- what a capability of the table does -/
abbrev Handler : Type := Env → CClient → Bool → CClient

/-- a handler that sets one member -/
def sets (f : Feature) : Handler := fun _ s bVal => s.setFeature f bVal

def setsServerTime : Handler := fun _ s bVal => (s.setFeature .serverTime bVal).setTagSupport (lit "time") bVal

def setsBatch : Handler := fun _ s bVal => (s.setFeature .batch bVal).setTagSupport (lit "batch") bVal

def setsSasl : Handler := fun e s bVal =>
  let s := if s.isDuringSASL && !bVal then s.abortSASL (abortLine e) else s
  s.setFeature .saslCap bVal

/-- the table, with the feature that each handler is about -/
def mCoreCaps : List (CString × Feature × Handler) :=
  [(lit "multi-prefix", .namesx, sets .namesx),
   (lit "userhost-in-names", .uhNames, sets .uhNames),
   (lit "echo-message", .echoMessage, sets .echoMessage),
   (lit "message-tags", .messageTagCap, sets .messageTagCap),
   (lit "server-time", .serverTime, setsServerTime),
   (lit "batch", .batch, setsBatch),
   (lit "cap-notify", .capNotify, sets .capNotify),
   (lit "invite-notify", .inviteNotify, sets .inviteNotify),
   (lit "chghost", .chgHost, sets .chgHost),
   (lit "sasl", .saslCap, setsSasl),
   -- for compatibility with older clients
   (lit "znc.in/server-time-iso", .serverTime, setsServerTime),
   (lit "znc.in/batch", .batch, setsBatch),
   (lit "znc.in/self-message", .selfMessage, sets .selfMessage)]

/-- `CoreCaps().find(sCap)` -/
def coreCap (sCap : CString) : Option (Feature × Handler) := mCoreCaps.lookup sCap

/-- the name switches the feature -/
def Controls (sCap : CString) (f : Feature) : Prop := (coreCap sCap).map Prod.fst = some f

instance (sCap : CString) (f : Feature) : Decidable (Controls sCap f) := inferInstanceAs (Decidable (_ = _))

/-! ## CAP -/

def multiLineFrom (back : CString) : List CString → VCString
  | [] => [back]
  | sCap :: caps =>
    if 400 < back.length + sCap.length then back :: multiLineFrom sCap caps
    else multiLineFrom ((if back = [] then [] else back ++ lit " ") ++ sCap) caps

def multiLine (caps : List CString) : VCString := multiLineFrom [] caps

/-- what is offered: the core capabilities, those of the modules, less those on the blacklist -/
def offer (s : CClient) (e : Env) : VCString :=
  let ssMechanisms := if e.ssMechanisms.isEmpty then OrdSet.ofList [lit "*"] else e.ssMechanisms
  let ssOfferCaps : SCString := .ofList (mCoreCaps.map fun c =>
    if s.hasCap302 && c.1 = lit "sasl" then c.1 ++ lit "=" ++ join (lit ",") ssMechanisms.toList else c.1)
  (e.onClientCapLs ssOfferCaps).toList.filter fun sCap => sCap.token 0 false (ch '=') false ∉ e.ssClientCapBlacklist

/-- several lines of an answer: only the last one is not marked as continued -/
def CClient.respondLines (s : CClient) (e : Env) (sCmd : CString) (vsCaps : VCString) : CClient :=
  (vsCaps.dropLast.foldl (fun s sCaps => s.respondCap e (sCmd ++ lit " * :" ++ sCaps)) s).respondCap e
    (sCmd ++ lit " :" ++ vsCaps.getLastD [])

def capLs (s : CClient) (e : Env) (Message : CMessage) : CClient :=
  let s := { s with uCapVersion := max s.uCapVersion (Message.getParam 1).toUShort }
  let vsCaps := multiLine (offer s e)
  let s := { s with bInCap := true }
  if s.hasCap302 then (s.setFeature .capNotify true).respondLines e (lit "LS") vsCaps
  else s.respondCap e (lit "LS :" ++ vsCaps.headD [])

/-- END, up to the login -/
def capEnd (s : CClient) (e : Env) : CClient :=
  let s := { s with bInCap := false }
  if !e.bAttached && s.isDuringSASL then s.abortSASL (abortLine e) else s

/-- a token of a request: a capability, and whether it is switched on -/
def change (sToken : CString) : CString × Bool :=
  if sToken.startsWith (lit "-") then (sToken.trimPrefix_n (lit "-"), false) else (sToken, true)

def changes (Message : CMessage) : List (CString × Bool) := ((Message.getParam 1).split (ch ' ') false).map change

/-- one turn of the first loop -/
def supported (e : Env) (c : CString × Bool) : Bool :=
  ((coreCap c.1).isSome || e.isClientCapSupported c.1 c.2) && c.1 ∉ e.ssClientCapBlacklist

/-- the handler of the table, if there is one -/
def handle (e : Env) (s : CClient) (c : CString × Bool) : CClient :=
  match coreCap c.1 with
  | some (_, handler) => handler e s c.2
  | none => s

/-- one turn of the second loop -/
def applyChange (e : Env) (s : CClient) (c : CString × Bool) : CClient :=
  let s := handle e s c
  let s := (e.onClientCapRequest c.1 c.2).foldl (fun s tag => s.setTagSupport tag.1 tag.2) s
  { s with ssAcceptedCaps := if c.2 then s.ssAcceptedCaps.insert c.1 else s.ssAcceptedCaps.erase c.1 }

def capReq (s : CClient) (e : Env) (Message : CMessage) : CClient :=
  let s := { s with bInCap := true }
  if (changes Message).all (supported e) then
    ((changes Message).foldl (applyChange e) s).respondCap e (lit "ACK :" ++ Message.getParam 1)
  else s.respondCap e (lit "NAK :" ++ Message.getParam 1)

def capList (s : CClient) (e : Env) : CClient :=
  let vsCaps := multiLine s.ssAcceptedCaps.toList
  if s.hasCap302 then s.respondLines e (lit "LIST") vsCaps else s.respondCap e (lit "LISTS :" ++ vsCaps.headD [])

def handleCap (s : CClient) (e : Env) (Message : CMessage) : CClient :=
  let sSubCmd := Message.getParam 0
  if sSubCmd.equals (lit "LS") then capLs s e Message
  else if sSubCmd.equals (lit "END") then capEnd s e
  else if sSubCmd.equals (lit "REQ") then capReq s e Message
  else if sSubCmd.equals (lit "LIST") then capList s e
  else s.putClient (lit ":irc.znc.in 410 " ++ e.sNick ++ lit " " ++ sSubCmd ++ lit " :Invalid CAP subcommand")

/-! ## Other lines -/

def notifyServerDependentCap (s : CClient) (e : Env) (sCap : CString) (bValue : Bool) (sValue : CString) : CClient :=
  if bValue && sCap ∉ e.ssClientCapBlacklist then
    if s.bFeature .capNotify then
      if s.hasCap302 && sValue ≠ [] then s.respondCap e (lit "NEW :" ++ sCap ++ lit "=" ++ sValue)
      else s.respondCap e (lit "NEW :" ++ sCap)
    else s
  else
    let s := if s.bFeature .capNotify then s.respondCap e (lit "DEL :" ++ sCap) else s
    { s with ssAcceptedCaps := s.ssAcceptedCaps.erase sCap }

/-- PROTOCTL, in `OnTextMessage`'s neighbour `OnOtherMessage` -/
def protoctl (s : CClient) (Message : CMessage) : CClient :=
  Message.vsParams.foldl (fun s sParam =>
    if sParam = lit "NAMESX" then s.setFeature .namesx true
    else if sParam = lit "UHNAMES" then s.setFeature .uhNames true
    else s) s

/-! ## Runs -/

/-- what changes the capabilities of a client; AUTHENTICATE sets the exchange in progress -/
inductive Op where
  | cap (e : Env) (Message : CMessage)
  | notify (e : Env) (sCap : CString) (bValue : Bool) (sValue : CString)
  | protoctl (Message : CMessage)
  | authenticate (sSASLMechanism sSASLBuffer : CString)

def exec (s : CClient) : Op → CClient
  | .cap e Message => handleCap s e Message
  | .notify e sCap bValue sValue => notifyServerDependentCap s e sCap bValue sValue
  | .protoctl Message => protoctl s Message
  | .authenticate sSASLMechanism sSASLBuffer => { s with sSASLMechanism := sSASLMechanism, sSASLBuffer := sSASLBuffer }

def run (s : CClient) (ops : List Op) : CClient := ops.foldl exec s

/-! ## Statements -/

/-- a request answered with ACK: the last change of each name and of each feature is what it leaves -/
structure Acked (s t : CClient) (e : Env) (Message : CMessage) : Prop where
  supported : ∀ c ∈ changes Message, supported e c = true
  sent : t.vsSent.getLast? = some (lit ":irc.znc.in CAP " ++ e.sNick ++ lit " " ++ (lit "ACK :" ++ Message.getParam 1))
  accepted : ∀ sCap, decide (sCap ∈ t.ssAcceptedCaps) =
    (lastWrite (fun k => decide (k = sCap)) (changes Message)).getD (decide (sCap ∈ s.ssAcceptedCaps))
  feature : ∀ f, t.bFeature f = (lastWrite (fun k => decide (Controls k f)) (changes Message)).getD (s.bFeature f)
  version : t.uCapVersion = s.uCapVersion

/-- a request answered with NAK: only the answer is sent -/
structure Refused (s t : CClient) (e : Env) (Message : CMessage) : Prop where
  unsupported : ∃ c ∈ changes Message, supported e c = false
  kept : t = { s with
    bInCap := true
    vsSent := s.vsSent ++ [lit ":irc.znc.in CAP " ++ e.sNick ++ lit " " ++ (lit "NAK :" ++ Message.getParam 1)] }

/-- the step is a request -/
def isReq : Op → Option (Env × CMessage)
  | .cap e Message => if (Message.getParam 0).equals (lit "REQ") then some (e, Message) else none
  | _ => none

/-- a feature is on exactly if one of its names is accepted, or it is `cap-notify` after `CAP LS 302` -/
def Exact (s : CClient) : Prop :=
  ∀ f, s.bFeature f = true ↔ (∃ sCap ∈ s.ssAcceptedCaps, Controls sCap f) ∨ (f = .capNotify ∧ s.hasCap302 = true)

/-- a feature that the changes switch off at last has no other name that they switch on or that stays accepted -/
def ChangesOk (s : CClient) (cs : List (CString × Bool)) : Prop :=
  ∀ c ∈ mCoreCaps, lastWrite (fun k => decide (Controls k c.2.1)) cs = some false →
    lastWrite (fun k => decide (k = c.1)) cs ≠ some true ∧
      (lastWrite (fun k => decide (k = c.1)) cs = none → c.1 ∉ s.ssAcceptedCaps) ∧
      ¬(c.2.1 = .capNotify ∧ s.hasCap302 = true)

/-- if an accepted core capability is withdrawn, another name of its feature is accepted -/
def WithdrawOk (s : CClient) (sCap : CString) : Prop :=
  sCap ∈ s.ssAcceptedCaps → ∀ c ∈ mCoreCaps, c.1 = sCap →
    (∃ d ∈ mCoreCaps, d.2.1 = c.2.1 ∧ d.1 ≠ sCap ∧ d.1 ∈ s.ssAcceptedCaps) ∨ (c.2.1 = .capNotify ∧ s.hasCap302 = true)

/-- the steps that keep `Exact` -/
def StepOk (s : CClient) : Op → Prop
  | .cap e Message =>
    (Message.getParam 0).equals (lit "REQ") = true → (changes Message).all (supported e) = true →
      ChangesOk s (changes Message)
  | .notify e sCap bValue _ => (bValue && sCap ∉ e.ssClientCapBlacklist) = true ∨ WithdrawOk s sCap
  | .protoctl Message =>
    (lit "NAMESX" ∈ Message.vsParams → lit "multi-prefix" ∈ s.ssAcceptedCaps) ∧
      (lit "UHNAMES" ∈ Message.vsParams → lit "userhost-in-names" ∈ s.ssAcceptedCaps)
  | .authenticate _ _ => True

/-! ## The table -/

theorem controls_of_mem : ∀ c ∈ mCoreCaps, Controls c.1 c.2.1 := by decide

theorem mem_of_coreCap {sCap : CString} {c : Feature × Handler} (h : coreCap sCap = some c) :
    (sCap, c) ∈ mCoreCaps := by
  obtain ⟨l₁, l₂, hl, -⟩ := lookup_eq_some_iff.1 h
  rw [hl]
  simp

theorem controls_iff {sCap : CString} {f : Feature} : Controls sCap f ↔ ∃ c ∈ mCoreCaps, c.1 = sCap ∧ c.2.1 = f := by
  constructor
  · intro h
    obtain ⟨c, hc, rfl⟩ := Option.map_eq_some_iff.1 h
    exact ⟨(sCap, c), mem_of_coreCap hc, rfl, rfl⟩
  · rintro ⟨c, hc, rfl, rfl⟩
    exact controls_of_mem c hc

/-- a handler sets its feature, and none of the others -/
structure Sets (f : Feature) (handler : Handler) : Prop where
  feature : ∀ e s bVal, (handler e s bVal).bFeature = (s.setFeature f bVal).bFeature
  accepted : ∀ e s bVal, (handler e s bVal).ssAcceptedCaps = s.ssAcceptedCaps
  version : ∀ e s bVal, (handler e s bVal).uCapVersion = s.uCapVersion

theorem sets_sets (f : Feature) : Sets f (sets f) := ⟨fun _ _ _ => rfl, fun _ _ _ => rfl, fun _ _ _ => rfl⟩

theorem setsServerTime_sets : Sets .serverTime setsServerTime := ⟨fun _ _ _ => rfl, fun _ _ _ => rfl, fun _ _ _ => rfl⟩

theorem setsBatch_sets : Sets .batch setsBatch := ⟨fun _ _ _ => rfl, fun _ _ _ => rfl, fun _ _ _ => rfl⟩

theorem setsSasl_sets : Sets .saslCap setsSasl where
  feature e s bVal := by
    unfold setsSasl
    dsimp only
    split <;> rfl
  accepted e s bVal := by
    unfold setsSasl
    dsimp only
    split <;> rfl
  version e s bVal := by
    unfold setsSasl
    dsimp only
    split <;> rfl

/-- **The table.** Each handler is about the feature of its entry. -/
theorem mCoreCaps_sets : ∀ c ∈ mCoreCaps, Sets c.2.1 c.2.2 := by
  simp only [mCoreCaps, forall_mem_cons, sets_sets, setsServerTime_sets, setsBatch_sets, setsSasl_sets, not_mem_nil,
    IsEmpty.forall_iff, implies_true, and_self]

/-! ## One change -/

theorem handle_feature (e : Env) (f : Feature) (s : CClient) (c : CString × Bool) :
    (handle e s c).bFeature f = if decide (Controls c.1 f) then c.2 else s.bFeature f := by
  unfold handle
  rcases h : coreCap c.1 with _ | ⟨g, handler⟩
  · have hc : ¬Controls c.1 f := by simp [Controls, h]
    rw [decide_eq_false hc]
    rfl
  · have hc : Controls c.1 f ↔ f = g := by simp [Controls, h, eq_comm]
    have hsets : Sets g handler := mCoreCaps_sets _ (mem_of_coreCap h)
    simp only [hsets.feature, hc, CClient.setFeature, decide_eq_true_eq]

theorem handle_frame (e : Env) (s : CClient) (c : CString × Bool) :
    (handle e s c).ssAcceptedCaps = s.ssAcceptedCaps ∧ (handle e s c).uCapVersion = s.uCapVersion := by
  unfold handle
  rcases h : coreCap c.1 with _ | ⟨g, handler⟩
  · exact ⟨rfl, rfl⟩
  · have hsets := mCoreCaps_sets _ (mem_of_coreCap h)
    exact ⟨hsets.accepted e s c.2, hsets.version e s c.2⟩

theorem foldl_setTagSupport (tags : List (CString × Bool)) (s : CClient) :
    ∃ ss, tags.foldl (fun s tag => s.setTagSupport tag.1 tag.2) s = { s with ssSupportedTags := ss } := by
  induction tags generalizing s with
  | nil => exact ⟨s.ssSupportedTags, rfl⟩
  | cons tag tags ih =>
    obtain ⟨ss, h⟩ := ih (s.setTagSupport tag.1 tag.2)
    exact ⟨ss, h⟩

theorem applyChange_feature (e : Env) (f : Feature) (s : CClient) (c : CString × Bool) :
    (applyChange e s c).bFeature f = if decide (Controls c.1 f) then c.2 else s.bFeature f := by
  obtain ⟨ss, h⟩ := foldl_setTagSupport (e.onClientCapRequest c.1 c.2) (handle e s c)
  simp only [applyChange, h]
  exact handle_feature e f s c

theorem applyChange_version (e : Env) (s : CClient) (c : CString × Bool) :
    (applyChange e s c).uCapVersion = s.uCapVersion := by
  obtain ⟨ss, h⟩ := foldl_setTagSupport (e.onClientCapRequest c.1 c.2) (handle e s c)
  simp only [applyChange, h]
  exact (handle_frame e s c).2

theorem applyChange_accepted (e : Env) (sCap : CString) (s : CClient) (c : CString × Bool) :
    decide (sCap ∈ (applyChange e s c).ssAcceptedCaps) =
      if decide (c.1 = sCap) then c.2 else decide (sCap ∈ s.ssAcceptedCaps) := by
  obtain ⟨ss, h⟩ := foldl_setTagSupport (e.onClientCapRequest c.1 c.2) (handle e s c)
  simp only [applyChange, h, (handle_frame e s c).1]
  obtain ⟨k, b⟩ := c
  by_cases hk : k = sCap
  · cases b <;> simp [hk]
  · cases b <;> simp [hk, Ne.symm hk]

/-! ## Requests -/

theorem foldl_applyChange_version (e : Env) (cs : List (CString × Bool)) (s : CClient) :
    (cs.foldl (applyChange e) s).uCapVersion = s.uCapVersion := by
  induction cs generalizing s with
  | nil => rfl
  | cons c cs ih => rw [foldl_cons, ih, applyChange_version]

/-- **A request is accepted as a whole,** and then its last changes count, or it is refused as a whole. -/
theorem capReq_spec (s : CClient) (e : Env) (Message : CMessage) :
    Acked s (capReq s e Message) e Message ∨ Refused s (capReq s e Message) e Message := by
  by_cases h : (changes Message).all (supported e) = true
  · left
    have heq : capReq s e Message = ((changes Message).foldl (applyChange e) { s with bInCap := true }).respondCap e
        (lit "ACK :" ++ Message.getParam 1) := by
      simp only [capReq, if_pos h]
    rw [heq]
    exact
      { supported := all_eq_true.1 h
        sent := by simp [CClient.respondCap, CClient.putClient]
        accepted := fun sCap => @get_foldl _ _ _ (applyChange e) (fun s => decide (sCap ∈ s.ssAcceptedCaps)) _
          (applyChange_accepted e sCap) (changes Message) { s with bInCap := true }
        feature := fun f => @get_foldl _ _ _ (applyChange e) (fun s => s.bFeature f) _
          (applyChange_feature e f) (changes Message) { s with bInCap := true }
        version := foldl_applyChange_version e (changes Message) { s with bInCap := true } }
  · right
    refine ⟨?_, by simp only [capReq, if_neg h]; rfl⟩
    obtain ⟨c, hc, hno⟩ := all_eq_false.1 (Bool.eq_false_iff.2 h)
    exact ⟨c, hc, Bool.eq_false_iff.2 hno⟩

theorem Acked.exact_iff {s t : CClient} {e : Env} {Message : CMessage} (h : Acked s t e Message) (hs : Exact s) :
    Exact t ↔ ChangesOk s (changes Message) := by
  have hcap : t.hasCap302 = s.hasCap302 := by simp only [CClient.hasCap302, h.version]
  constructor
  · intro ht c hc hlast
    have hoff : ¬((∃ sCap ∈ t.ssAcceptedCaps, Controls sCap c.2.1) ∨ (c.2.1 = .capNotify ∧ t.hasCap302 = true)) := by
      rw [← ht, h.feature, hlast]
      exact Bool.false_ne_true
    rw [hcap] at hoff
    have hname : c.1 ∉ t.ssAcceptedCaps := fun hmem => hoff (.inl ⟨c.1, hmem, controls_of_mem c hc⟩)
    have hacc := h.accepted c.1
    rw [decide_eq_false hname] at hacc
    refine ⟨fun hon => ?_, fun hnone hmem => ?_, fun hn => hoff (.inr hn)⟩
    · rw [hon] at hacc
      cases hacc
    · rw [hnone, decide_eq_true hmem] at hacc
      cases hacc
  · intro hok f
    rw [h.feature, hcap]
    rcases hlast : lastWrite (fun k => decide (Controls k f)) (changes Message) with _ | _ | _
    · -- the request does not mention the feature
      have hsame : ∀ sCap, Controls sCap f → (sCap ∈ t.ssAcceptedCaps ↔ sCap ∈ s.ssAcceptedCaps) := by
        intro sCap hc
        have hnone : lastWrite (fun k => decide (k = sCap)) (changes Message) = none := by
          rw [lastWrite_eq_none_iff] at hlast ⊢
          intro w hw
          refine decide_eq_false fun heq => ?_
          exact of_decide_eq_false (hlast w hw) (heq ▸ hc)
        have hacc := h.accepted sCap
        rwa [hnone, Option.getD_none, decide_eq_decide] at hacc
      rw [Option.getD_none, hs f]
      refine or_congr_left (exists_congr fun sCap => ?_)
      exact and_congr_left fun hc => (hsame sCap hc).symm
    · -- its last change switches the feature off
      refine iff_of_false Bool.false_ne_true ?_
      rintro (⟨sCap, hmem, hc⟩ | hn)
      · obtain ⟨c, hentry, rfl, rfl⟩ := controls_iff.1 hc
        obtain ⟨hon, hstay, -⟩ := hok c hentry hlast
        have hacc := h.accepted c.1
        rw [decide_eq_true hmem] at hacc
        rcases hname : lastWrite (fun k => decide (k = c.1)) (changes Message) with _ | _ | _
        · rw [hname, decide_eq_false (hstay hname)] at hacc
          cases hacc
        · rw [hname] at hacc
          cases hacc
        · exact hon hname
      · obtain ⟨rfl, hcap302⟩ := hn
        have hentry : (lit "cap-notify", Feature.capNotify, sets .capNotify) ∈ mCoreCaps := by simp [mCoreCaps]
        exact (hok _ hentry hlast).2.2 ⟨rfl, hcap302⟩
    · -- it switches the feature on, through a name that is then accepted
      refine iff_of_true rfl (.inl ?_)
      obtain ⟨k, hk, hname⟩ := exists_of_lastWrite hlast
      refine ⟨k, ?_, of_decide_eq_true hk⟩
      have hacc := h.accepted k
      rw [hname] at hacc
      exact of_decide_eq_true hacc

/-! ## The other steps -/

theorem respondLines_eq (s : CClient) (e : Env) (sCmd : CString) (vsCaps : VCString) :
    ∃ sent, s.respondLines e sCmd vsCaps = { s with vsSent := sent } := by
  unfold CClient.respondLines
  generalize vsCaps.getLastD [] = last
  induction vsCaps.dropLast generalizing s with
  | nil => exact ⟨_, rfl⟩
  | cons sCaps caps ih =>
    obtain ⟨sent, h⟩ := ih (s.respondCap e (sCmd ++ lit " * :" ++ sCaps))
    exact ⟨sent, h⟩

theorem exact_congr {s t : CClient} (hf : t.bFeature = s.bFeature) (ha : t.ssAcceptedCaps = s.ssAcceptedCaps)
    (hcap : t.hasCap302 = s.hasCap302) : Exact t ↔ Exact s := by
  simp only [Exact, hf, ha, hcap]

theorem hasCap302_max {a b : UInt16} (h : 302 ≤ a) : 302 ≤ max a b := by
  change 302 ≤ if a ≤ b then b else a
  split
  · rename_i hab
    exact UInt16.le_trans h hab
  · exact h

variable {s : CClient}

theorem capLs_exact (hs : Exact s) (e : Env) (Message : CMessage) : Exact (capLs s e Message) := by
  unfold capLs
  dsimp only
  split
  · rename_i hcap
    obtain ⟨sent, h⟩ := respondLines_eq (CClient.setFeature { s with
      uCapVersion := max s.uCapVersion (Message.getParam 1).toUShort
      bInCap := true } .capNotify true) e (lit "LS") (multiLine (offer { s with
      uCapVersion := max s.uCapVersion (Message.getParam 1).toUShort } e))
    rw [h]
    intro f
    by_cases hf : f = .capNotify
    · exact iff_of_true (by simp [CClient.setFeature, hf]) (.inr ⟨hf, hcap⟩)
    · have hs := hs f
      simp only [hf, false_and, or_false] at hs ⊢
      simpa [CClient.setFeature, hf] using hs
  · rename_i hcap
    have hbefore : s.hasCap302 = false := by
      refine Bool.eq_false_iff.2 fun h => hcap ?_
      exact decide_eq_true (hasCap302_max (of_decide_eq_true h))
    refine (exact_congr ?_ ?_ ?_).2 hs
    · rfl
    · rfl
    · rw [hbefore]
      exact Bool.eq_false_iff.2 hcap

theorem capEnd_exact (e : Env) : Exact (capEnd s e) ↔ Exact s := by
  unfold capEnd
  dsimp only
  split <;> exact exact_congr rfl rfl rfl

theorem capList_exact (e : Env) : Exact (capList s e) ↔ Exact s := by
  unfold capList
  dsimp only
  split
  · obtain ⟨sent, h⟩ := respondLines_eq s e (lit "LIST") (multiLine s.ssAcceptedCaps.toList)
    rw [h]
    exact exact_congr rfl rfl rfl
  · exact exact_congr rfl rfl rfl

theorem capReq_exact (hs : Exact s) (e : Env) (Message : CMessage) :
    Exact (capReq s e Message) ↔ ((changes Message).all (supported e) = true → ChangesOk s (changes Message)) := by
  rcases capReq_spec s e Message with h | h
  · rw [h.exact_iff hs]
    exact ⟨fun hok _ => hok, fun hok => hok (all_eq_true.2 h.supported)⟩
  · have hno : ¬(changes Message).all (supported e) = true := by
      obtain ⟨c, hc, hno⟩ := h.unsupported
      exact fun hall => Bool.false_ne_true (hno.symm.trans (all_eq_true.1 hall c hc))
    rw [h.kept]
    exact iff_of_true ((exact_congr rfl rfl rfl).2 hs) fun hall => absurd hall hno

theorem not_equals_of_req {sSubCmd : CString} (h : sSubCmd.equals (lit "REQ") = true) (w : CString)
    (hw : (lit "REQ").equals w = false) : sSubCmd.equals w = false := by
  rw [equals_congr h, hw]

theorem handleCap_exact (hs : Exact s) (e : Env) (Message : CMessage) :
    Exact (handleCap s e Message) ↔ StepOk s (.cap e Message) := by
  unfold handleCap StepOk
  dsimp only
  by_cases hreq : (Message.getParam 0).equals (lit "REQ") = true
  · simp only [not_equals_of_req hreq (lit "LS") (by decide), not_equals_of_req hreq (lit "END") (by decide), hreq,
      if_true, Bool.false_eq_true, if_false, true_implies]
    exact capReq_exact hs e Message
  · refine iff_of_true ?_ fun h => absurd h hreq
    rw [if_neg hreq]
    split_ifs
    · exact capLs_exact hs e Message
    · exact (capEnd_exact e).2 hs
    · exact (capList_exact e).2 hs
    · exact (exact_congr rfl rfl rfl).2 hs

/-! ## Notifications -/

theorem erase_exact {s t : CClient} (hs : Exact s) {sCap : CString} (hf : t.bFeature = s.bFeature)
    (ha : t.ssAcceptedCaps = s.ssAcceptedCaps.erase sCap) (hcap : t.hasCap302 = s.hasCap302) :
    Exact t ↔ WithdrawOk s sCap := by
  constructor
  · intro ht hmem c hc hname
    have hon : s.bFeature c.2.1 = true := (hs c.2.1).2 (.inl ⟨sCap, hmem, hname ▸ controls_of_mem c hc⟩)
    rw [← hf] at hon
    rcases (ht c.2.1).1 hon with ⟨sOther, hother, hcontrols⟩ | hn
    · rw [ha, OrdSet.mem_erase] at hother
      obtain ⟨d, hd, rfl, hfeature⟩ := controls_iff.1 hcontrols
      exact .inl ⟨d, hd, hfeature, hother⟩
    · rw [hcap] at hn
      exact .inr hn
  · intro hok f
    rw [hf, hs f, hcap, ha]
    constructor
    · rintro (⟨sName, hmem, hcontrols⟩ | hn)
      · by_cases hname : sName = sCap
        · subst hname
          obtain ⟨c, hc, hcname, rfl⟩ := controls_iff.1 hcontrols
          rcases hok hmem c hc hcname with ⟨d, hd, hfeature, hother⟩ | hn
          · exact .inl ⟨d.1, (OrdSet.mem_erase _ _ _).2 hother, hfeature ▸ controls_of_mem d hd⟩
          · exact .inr hn
        · exact .inl ⟨sName, (OrdSet.mem_erase _ _ _).2 ⟨hname, hmem⟩, hcontrols⟩
      · exact .inr hn
    · rintro (⟨sName, hmem, hcontrols⟩ | hn)
      · exact .inl ⟨sName, ((OrdSet.mem_erase _ _ _).1 hmem).2, hcontrols⟩
      · exact .inr hn

theorem notify_exact (hs : Exact s) (e : Env) (sCap : CString) (bValue : Bool) (sValue : CString) :
    Exact (notifyServerDependentCap s e sCap bValue sValue) ↔ StepOk s (.notify e sCap bValue sValue) := by
  unfold notifyServerDependentCap StepOk
  by_cases h : (bValue && sCap ∉ e.ssClientCapBlacklist) = true
  · rw [if_pos h]
    refine iff_of_true ?_ (.inl h)
    split_ifs <;> exact (exact_congr rfl rfl rfl).2 hs
  · rw [if_neg h]
    simp only [h, false_or, Bool.false_eq_true]
    refine erase_exact hs ?_ ?_ ?_ <;> split <;> rfl

/-! ## PROTOCTL -/

theorem protoctl_eq (s : CClient) (Message : CMessage) : protoctl s Message = { s with
    bFeature := fun f => s.bFeature f || (f = .namesx && lit "NAMESX" ∈ Message.vsParams) ||
      (f = .uhNames && lit "UHNAMES" ∈ Message.vsParams) } := by
  unfold protoctl
  induction Message.vsParams generalizing s with
  | nil => simp
  | cons sParam params ih =>
    rw [foldl_cons, ih]
    by_cases h1 : sParam = lit "NAMESX"
    · have hne : lit "UHNAMES" ≠ lit "NAMESX" := by decide
      subst h1
      rw [if_pos rfl]
      simp only [CClient.setFeature, mem_cons, hne, false_or, true_or, decide_true, Bool.and_true]
      congr 1
      funext f
      by_cases hf : f = .namesx <;> simp [hf]
    · rw [if_neg h1]
      by_cases h2 : sParam = lit "UHNAMES"
      · subst h2
        rw [if_pos rfl]
        simp only [CClient.setFeature, mem_cons, Ne.symm h1, false_or, true_or, decide_true, Bool.and_true]
        congr 1
        funext f
        by_cases hf : f = .uhNames <;> simp [hf]
      · rw [if_neg h2]
        simp only [mem_cons, Ne.symm h1, Ne.symm h2, false_or]

theorem accepted_of_single (hs : Exact s) {sCap : CString} {f : Feature} (hon : s.bFeature f = true)
    (hsingle : ∀ c ∈ mCoreCaps, c.2.1 = f → c.1 = sCap) (hf : f ≠ .capNotify) : sCap ∈ s.ssAcceptedCaps := by
  rcases (hs f).1 hon with ⟨sName, hmem, hcontrols⟩ | hn
  · obtain ⟨c, hc, rfl, hfeature⟩ := controls_iff.1 hcontrols
    rwa [hsingle c hc hfeature] at hmem
  · exact absurd hn.1 hf

theorem protoctl_exact (hs : Exact s) (Message : CMessage) :
    Exact (protoctl s Message) ↔ StepOk s (.protoctl Message) := by
  rw [protoctl_eq]
  constructor
  · intro ht
    exact ⟨fun hname => accepted_of_single ht (f := .namesx) (by simp [hname]) (by decide) (by decide),
      fun hname => accepted_of_single ht (f := .uhNames) (by simp [hname]) (by decide) (by decide)⟩
  · intro hok f
    by_cases h1 : f = .namesx ∧ lit "NAMESX" ∈ Message.vsParams
    · obtain ⟨rfl, hname⟩ := h1
      exact iff_of_true (by simp [hname]) (.inl ⟨_, hok.1 hname, by decide⟩)
    · by_cases h2 : f = .uhNames ∧ lit "UHNAMES" ∈ Message.vsParams
      · obtain ⟨rfl, hname⟩ := h2
        exact iff_of_true (by simp [hname]) (.inl ⟨_, hok.2 hname, by decide⟩)
      · refine Iff.trans ?_ (hs f)
        simp only [Bool.or_eq_true, Bool.and_eq_true, decide_eq_true_eq, h1, h2, or_false]

/-! ## Runs of steps -/

/-- **One step.** It keeps the features and the names in agreement exactly if it is in order. -/
theorem exec_exact (hs : Exact s) (op : Op) : Exact (exec s op) ↔ StepOk s op := by
  cases op with
  | cap e Message => exact handleCap_exact hs e Message
  | notify e sCap bValue sValue => exact notify_exact hs e sCap bValue sValue
  | protoctl Message => exact protoctl_exact hs Message
  | authenticate sSASLMechanism sSASLBuffer => exact iff_of_true ((exact_congr rfl rfl rfl).2 hs) trivial

theorem init_exact : Exact CClient.init := by
  intro f
  simp [CClient.init, CClient.hasCap302]

theorem handleCap_req {op : Op} {e : Env} {Message : CMessage} (h : isReq op = some (e, Message)) :
    Acked s (exec s op) e Message ∨ Refused s (exec s op) e Message := by
  cases op with
  | cap e' Message' =>
    obtain ⟨hreq, heq⟩ := Option.ite_none_right_eq_some.1 h
    cases heq
    have hcap : exec s (.cap e Message) = capReq s e Message := by
      simp only [exec, handleCap, not_equals_of_req hreq (lit "LS") (by decide),
        not_equals_of_req hreq (lit "END") (by decide), hreq, if_true, Bool.false_eq_true, if_false]
    rw [hcap]
    exact capReq_spec s e Message
  | notify e' sCap bValue sValue => cases h
  | protoctl Message' => cases h
  | authenticate sSASLMechanism sSASLBuffer => cases h

/-- what is promised of a step: a request is accepted or refused as a whole, and the features and the names agree -/
def Promised (s : CClient) (op : Op) : Prop :=
  (∀ e Message, isReq op = some (e, Message) → Acked s (exec s op) e Message ∨ Refused s (exec s op) e Message) ∧
    Exact (exec s op)

/-- **The runs that keep the promise** are those whose steps are in order. -/
theorem run_exact_iff (ops : List Op) :
    (∀ past op todo, ops = past ++ op :: todo → Promised (run .init past) op) ↔
      Journal.Along exec (fun _ s op => StepOk s op) ops .init := by
  suffices h : ∀ s, Exact s → ((∀ past op todo, ops = past ++ op :: todo → Promised (run s past) op) ↔
      Journal.Along exec (fun _ s op => StepOk s op) ops s) from h .init init_exact
  induction ops with
  | nil => exact fun s _ => iff_of_true (fun past op todo h => by simp at h) trivial
  | cons op ops ih =>
    intro s hs
    rw [Journal.Along, ← exec_exact hs op]
    constructor
    · intro h
      have hop : Promised s op := h [] op ops rfl
      refine ⟨hop.2, (ih _ hop.2).1 fun past op' todo hsplit => ?_⟩
      exact h (op :: past) op' todo (by rw [hsplit, cons_append])
    · rintro ⟨hop, hrest⟩ past op' todo hsplit
      rcases cons_eq_append_iff.1 hsplit with ⟨rfl, hcons⟩ | ⟨past', rfl, hops⟩
      · obtain ⟨rfl, rfl⟩ := List.cons.inj hcons
        exact ⟨fun e Message h => handleCap_req h, hop⟩
      · exact (ih _ hop).2 hrest past' op' todo hops

/-- a client and modules without capabilities of their own -/
def plain : Env := ⟨lit "nick", false, .empty, .empty, id, fun _ _ => false, fun _ _ => []⟩

def cap (sLine : String) : Op :=
  .cap plain ((CMessage.ofLine CMessage.stoppedClock (lit "CAP " ++
    lit sLine)).getD (CMessage.blank CMessage.stoppedClock))

/-- both names are asked for, and one is given back: the other is still accepted, but the feature is off -/
theorem run_alias_fails : ¬Promised (run .init [cap "REQ :batch znc.in/batch"]) (cap "REQ -batch") := by
  intro h
  have hnot : ¬((exec (run .init [cap "REQ :batch znc.in/batch"]) (cap "REQ -batch")).bFeature .batch = true) := by
    decide +kernel
  have hmem : lit "znc.in/batch" ∈
      (exec (run .init [cap "REQ :batch znc.in/batch"]) (cap "REQ -batch")).ssAcceptedCaps := by decide +kernel
  exact hnot ((h.2 .batch).2 (.inl ⟨_, hmem, by decide⟩))

end ZNC.ClientCaps
