/-
What `modules/crypt.cpp` does to the messages it sees, and to the network.

A message that is decrypted gets the nick prefix in front of its sender. The hooks of messages give the filter the nick of the
message; the one of numerics gives it the nick of the channel.

Model: a hook has no result where it uses a nick that is not there. `Encrypt`, `Decrypt` and the secret of a key exchange are those of
OpenSSL; the ivec of an outgoing message and the answer of DH1080 come with the event. Between two messages the network and the keys
may change as they like.

Results:
- `onNumeric_iff`: when a topic leaves the network as it is;
- `frame_iff`: a message leaves the network as it is exactly if it meets `Meets`;
- `frames_iff`: the same for runs;
- `topics_grow`: the nick grows by a prefix with every topic;
- `topic_renames`: a way to fail.
-/
import ZNC.Base64
import ZNC.Chan
import ZNC.Cidr
import ZNC.IRCNetwork
import ZNC.Lib.Runs

namespace ZNC.Crypt

open CString Option List

/-! ## Model -/

/-- `CString::Encrypt` and `Decrypt` of a text with a key -/
structure Cipher where
  Encrypt : CString → CString → CString
  Decrypt : CString → CString → CString

/-- a channel with its name -/
structure NetChan where
  sName : CString
  chan : Chan.CChan
deriving DecidableEq

/-- the network: its own nick, its channels and the STATUSMSG prefixes of its socket -/
structure CIRCNetwork where
  m_IRCNick : CNick
  m_vChans : List NetChan
  sStatusMsg : CString
deriving DecidableEq

/-- the nick of a channel with another nick, user and host -/
def replaced (Nick : Chan.CNick) (New : CNick) : Chan.CNick := { Nick with toCNick := New }

/-- the channel at the place `i` with other nicks -/
def CIRCNetwork.withNicks (net : CIRCNetwork) (i : ℕ) (pChan : NetChan)
    (msNicks : OrdMap CString Chan.CNick) : CIRCNetwork :=
  let chan : Chan.CChan := { pChan.chan with msNicks := msNicks }
  { net with m_vChans := net.m_vChans.set i { pChan with chan := chan } }

/-- `FindChan(sName)`: the place of the channel -/
def CIRCNetwork.findChan (net : CIRCNetwork) (sName : CString) : Option ℕ :=
  net.m_vChans.findIdx? fun pChan => (sName.trimLeft net.sStatusMsg).equals pChan.sName

structure CCryptMod where
  m_mssRegistry : MCString
  m_sPubKey : CString
  /-- `GetUser()->GetStatusPrefix()` -/
  sStatusPrefix : CString
  /-- `PutModule` and `PutIRC`, the newest first -/
  said : List CString
  sent : List CString

inductive EModRet where
  | CONTINUE
  | HALT
deriving DecidableEq

/-- the messages, each for the hook that gets it; a channel message comes with the name of its channel -/
inductive Event where
  /-- `OnUserTextMessage`, `OnUserNoticeMessage`, `OnUserActionMessage`; `OnUserTopicMessage` as a text -/
  | user (k : ETextKind) (Msg : CMessage) (sIvec : CString)
  | privText (Message : CMessage)
  /-- `DH` is the secret key for a public one, if it is computed -/
  | privNotice (Message : CMessage) (DH : CString → Option CString)
  | privAction (Message : CMessage)
  /-- `OnChanMsg`, `OnChanNotice`, `OnChanAction`; `OnTopic` as a text -/
  | chan (k : ETextKind) (Message : CMessage) (sChan : CString)
  | numeric (Message : CMessage)

namespace CCryptMod

def putModule (m : CCryptMod) (sLine : CString) : CCryptMod := { m with said := sLine :: m.said }

def putIRC (m : CCryptMod) (sLine : CString) : CCryptMod := { m with sent := sLine :: m.sent }

def setNV (m : CCryptMod) (sName sValue : CString) : CCryptMod :=
  { m with m_mssRegistry := m.m_mssRegistry.insert sName sValue }

def nickPrefix (m : CCryptMod) : CString :=
  let sDefault := if m.sStatusPrefix.startsWith (lit "*") then lit "." else lit "*"
  match m.m_mssRegistry.find (lit "@nick-prefix@") with
  | none => sDefault
  | some sNickPrefix =>
    let min := min m.sStatusPrefix.length sNickPrefix.length
    if min = 0 || !strncasecmp m.sStatusPrefix sNickPrefix min then sNickPrefix else sDefault

variable (cipher : Cipher)

/-- `FilterIncoming`; `pNick` is where the reference to the nick points -/
def filterIncoming (m : CCryptMod) (sTarget : CString) (pNick : Option CNick) (sMessage : CString) :
    Option (Option CNick × CString) :=
  if sMessage.startsWith (lit "+OK *") then
    let sMessage := sMessage.trimPrefix_n (lit "+OK *")
    match m.m_mssRegistry.find sTarget.asLower with
    | none => some (pNick, sMessage)
    | some sKey =>
      let sMessage := cStr ((cipher.Decrypt sMessage.base64Decode sKey).drop 8)
      pNick.map fun Nick => (some { Nick with sNick := m.nickPrefix ++ Nick.sNick }, sMessage)
  else some (pNick, sMessage)

def filterOutgoing (m : CCryptMod) (k : ETextKind) (Msg : CMessage) (sIvec : CString) : Option CMessage :=
  let sTarget := (Msg.getParam 0).trimPrefix_n m.nickPrefix
  (Msg.setParam 0 sTarget).bind fun Msg =>
    let sMessage := k.getText Msg
    if sMessage.startsWith (lit "``") then some Msg
    else
      match m.m_mssRegistry.find sTarget.asLower with
      | none => some Msg
      | some sKey => k.setText Msg (lit "+OK *" ++ (cipher.Encrypt (sIvec ++ sMessage) sKey).base64Encode)

/-- a hook that filters the text of a message under a name -/
def filterMessage (m : CCryptMod) (k : ETextKind) (Message : CMessage) (sTarget : CString) : Option CMessage :=
  (m.filterIncoming cipher sTarget (some Message.nick) (k.getText Message)).bind fun (pNick, sMessage) =>
    k.setText { Message with nick := pNick.getD Message.nick } sMessage

/-- `OnPrivTextMessage`: the first mask that matches, or the nick -/
def privTarget (m : CCryptMod) (Nick : CNick) : CString :=
  let masks := m.m_mssRegistry.keys.filter fun sMask => sMask.contains (lit "!") || sMask.contains (lit "@")
  (masks.find? fun sMask => wildCmp sMask.asLower Nick.getHostMask.asLower).getD Nick.sNick

/-- the key exchange of `OnPrivNoticeMessage`; none is no command of it -/
def keyExchange (m : CCryptMod) (Nick : CNick) (sMessage : CString) (DH : CString → Option CString) :
    Option (CCryptMod × EModRet) :=
  let sCommand := sMessage.token 0 false (ch ' ') false
  let sOtherPubKey := sMessage.token 1 false (ch ' ') false
  let sTail := sMessage.token 2 false (ch ' ') false
  let bInit := sCommand.equals (lit "DH1080_INIT") || sCommand.equals (lit "DH1080_INIT_CBC")
  if (bInit || sCommand.equals (lit "DH1080_FINISH")) && sOtherPubKey ≠ [] then
    let sSecretKey := if sOtherPubKey.endsWith (lit "A") then DH (sOtherPubKey.trimSuffix_n (lit "A")) else none
    match sSecretKey with
    | none =>
      some (m.putModule (lit "Error in " ++ sCommand ++ lit " with " ++ Nick.sNick ++
        lit ": no secret key computed"), .CONTINUE)
    | some sSecretKey =>
      let m :=
        if bInit then
          (m.putModule (lit "Received DH1080 public key from " ++ Nick.sNick ++ lit ", sending mine...")).putIRC
            (lit "NOTICE " ++ Nick.sNick ++ lit " :DH1080_FINISH " ++ m.m_sPubKey ++ lit "A" ++
              if sTail = [] then [] else lit " " ++ sTail)
        else m
      some ((m.setNV Nick.sNick.asLower sSecretKey).putModule (lit "Key for " ++ Nick.sNick ++
        lit " successfully set."), .HALT)
  else none

def onNumericMessage (m : CCryptMod) (net : CIRCNetwork) (Message : CMessage) : Option (CIRCNetwork × CMessage) :=
  if Message.sCommand.toUInt ≠ 332 then some (net, Message)
  else
    match net.findChan (Message.getParam 1) with
    | none => some (net, Message)
    | some i =>
      match net.m_vChans[i]? with
      | none => some (net, Message)
      | some pChan =>
        let pNick := pChan.chan.findNick (Message.getParam 0)
        (m.filterIncoming cipher pChan.sName (pNick.map Chan.CNick.toCNick) (Message.getParam 2)).bind fun (pNew, sTopic) =>
          -- the nick is written where it stands in the channel
          let msNicks := match pNick, pNew with
            | some Nick, some New => pChan.chan.msNicks.insert (Message.getParam 0) (replaced Nick New)
            | _, _ => pChan.chan.msNicks
          (Message.setParam 2 sTopic).map fun Message => (net.withNicks i pChan msNicks, Message)

end CCryptMod

/-- the module and its network -/
structure St where
  mod : CCryptMod
  net : CIRCNetwork

/-- what a hook leaves -/
structure Outcome where
  mod : CCryptMod
  net : CIRCNetwork
  Message : CMessage
  ret : EModRet

open CCryptMod

variable (cipher : Cipher)

def hook (s : St) : Event → Option Outcome
  | .user k Msg sIvec => (s.mod.filterOutgoing cipher k Msg sIvec).map fun Msg => ⟨s.mod, s.net, Msg, .CONTINUE⟩
  | .privText Message =>
    (s.mod.filterMessage cipher .Text Message (s.mod.privTarget Message.nick)).map fun Message =>
      ⟨s.mod, s.net, Message, .CONTINUE⟩
  | .privNotice Message DH =>
    match s.mod.keyExchange Message.nick (ETextKind.Notice.getText Message) DH with
    | some (m, ret) => some ⟨m, s.net, Message, ret⟩
    | none =>
      (s.mod.filterMessage cipher .Notice Message Message.nick.sNick).map fun Message =>
        ⟨s.mod, s.net, Message, .CONTINUE⟩
  | .privAction Message =>
    (s.mod.filterMessage cipher .Action Message Message.nick.sNick).map fun Message =>
      ⟨s.mod, s.net, Message, .CONTINUE⟩
  | .chan k Message sChan =>
    (s.mod.filterMessage cipher k Message sChan).map fun Message => ⟨s.mod, s.net, Message, .CONTINUE⟩
  | .numeric Message =>
    (s.mod.onNumericMessage cipher s.net Message).map fun (net, Message) => ⟨s.mod, net, Message, .CONTINUE⟩

/-- a message for the module, or what others do to the keys and the network between two messages -/
inductive Turn where
  | message (ev : Event)
  | other (mod : CCryptMod) (net : CIRCNetwork)

/-- the process ends where a hook has no result; what is left then does not matter -/
def step (s : St) : Turn → St
  | .message ev =>
    match hook cipher s ev with
    | some r => ⟨r.mod, r.net⟩
    | none => s
  | .other mod net => ⟨mod, net⟩

/-! ## What should hold -/

/-- the hook returns, and the network is as it was -/
def Frame (s : St) : Turn → Prop
  | .message ev => ∃ r, hook cipher s ev = some r ∧ r.net = s.net
  | .other _ _ => True

/-- a topic that is decrypted: 332 of a channel with a key, which stands at the place `i` -/
def Decrypts (s : St) (Message : CMessage) (i : ℕ) (pChan : NetChan) : Prop :=
  Message.sCommand.toUInt = 332 ∧ s.net.findChan (Message.getParam 1) = some i ∧ s.net.m_vChans[i]? = some pChan ∧
    (Message.getParam 2).startsWith (lit "+OK *") = true ∧ (s.mod.m_mssRegistry.find pChan.sName.asLower).isSome

/-- a topic that is decrypted is that of a channel which has the own nick, and no prefix is set -/
def Meets (s : St) : Turn → Prop
  | .message (.numeric Message) => ∀ i pChan, Decrypts s Message i pChan →
      (pChan.chan.findNick (Message.getParam 0)).isSome ∧ s.mod.nickPrefix = []
  | _ => True

/-! ## The filter -/

/-- the nick after the filter: it gets the prefix if the message is decrypted -/
def filteredNick (m : CCryptMod) (sTarget : CString) (Nick : CNick) (sMessage : CString) : CNick :=
  if sMessage.startsWith (lit "+OK *") = true ∧ (m.m_mssRegistry.find sTarget.asLower).isSome then
    { Nick with sNick := m.nickPrefix ++ Nick.sNick }
  else Nick

variable (m : CCryptMod) (sTarget : CString) {Message : CMessage} {pChan : NetChan}

theorem filterIncoming_some (Nick : CNick) (sMessage : CString) :
    ∃ sText, m.filterIncoming cipher sTarget (some Nick) sMessage =
      some (some (filteredNick m sTarget Nick sMessage), sText) := by
  unfold filterIncoming filteredNick
  by_cases hstart : sMessage.startsWith (lit "+OK *") = true
  · rw [if_pos hstart]
    dsimp only
    cases hkey : m.m_mssRegistry.find sTarget.asLower with
    | none => simp
    | some sKey => simp [hstart]
  · rw [if_neg hstart, if_neg fun hboth => hstart hboth.1]
    exact ⟨_, rfl⟩

theorem filterIncoming_none_iff (sMessage : CString) :
    (∃ sText, m.filterIncoming cipher sTarget none sMessage = some (none, sText)) ↔
      ¬ (sMessage.startsWith (lit "+OK *") = true ∧ (m.m_mssRegistry.find sTarget.asLower).isSome) := by
  unfold filterIncoming
  by_cases hstart : sMessage.startsWith (lit "+OK *") = true
  · rw [if_pos hstart]
    dsimp only
    cases hkey : m.m_mssRegistry.find sTarget.asLower with
    | none => simp
    | some sKey => simp [hstart]
  · rw [if_neg hstart]
    simp [hstart]

theorem filterIncoming_crash {sTarget sMessage : CString}
    (h : sMessage.startsWith (lit "+OK *") = true ∧ (m.m_mssRegistry.find sTarget.asLower).isSome) :
    m.filterIncoming cipher sTarget none sMessage = none := by
  obtain ⟨hstart, hkey⟩ := h
  obtain ⟨sKey, hkey⟩ := isSome_iff_exists.1 hkey
  rw [filterIncoming, if_pos hstart, hkey]
  rfl

theorem setParam_isSome (m : CMessage) (uIdx : UInt32) (h : uIdx.toNat + 1 < 2 ^ 32) (sParam : CString) :
    ∃ m', m.setParam uIdx sParam = some m' := by
  obtain ⟨m', hm', -⟩ := CMessage.setParam_spec m uIdx sParam h
  exact ⟨m', hm'⟩

theorem setText_isSome (k : ETextKind) (m : CMessage) (sText : CString) : ∃ m', k.setText m sText = some m' :=
  setParam_isSome m 1 (by decide) _

theorem filterMessage_isSome (k : ETextKind) (Message : CMessage) (sTarget : CString) :
    ∃ Message', m.filterMessage cipher k Message sTarget = some Message' := by
  obtain ⟨sText, hfilter⟩ := filterIncoming_some cipher m sTarget Message.nick (k.getText Message)
  rw [filterMessage, hfilter, bind_some]
  exact setText_isSome k _ sText

theorem filterOutgoing_isSome (k : ETextKind) (Msg : CMessage) (sIvec : CString) :
    ∃ Msg', m.filterOutgoing cipher k Msg sIvec = some Msg' := by
  obtain ⟨Msg', hset⟩ := setParam_isSome Msg 0 (by decide) ((Msg.getParam 0).trimPrefix_n m.nickPrefix)
  rw [filterOutgoing, hset, bind_some]
  dsimp only
  split_ifs
  · exact ⟨_, rfl⟩
  · cases m.m_mssRegistry.find ((Msg.getParam 0).trimPrefix_n m.nickPrefix).asLower with
    | none => exact ⟨_, rfl⟩
    | some sKey => exact setText_isSome k Msg' _

/-! ## Numerics -/

theorem withNicks_eq_iff {net : CIRCNetwork} {i : ℕ} (hchan : net.m_vChans[i]? = some pChan)
    (msNicks : OrdMap CString Chan.CNick) : net.withNicks i pChan msNicks = net ↔ msNicks = pChan.chan.msNicks := by
  obtain ⟨hi, hget⟩ := List.getElem?_eq_some_iff.1 hchan
  constructor
  · intro hsame
    have hset : (net.withNicks i pChan msNicks).m_vChans[i]? = some pChan :=
      (congrArg (fun n => n.m_vChans[i]?) hsame).trans hchan
    rw [CIRCNetwork.withNicks] at hset
    dsimp only at hset
    rw [getElem?_set_self hi, some.injEq] at hset
    exact congrArg (fun c => c.chan.msNicks) hset
  · rintro rfl
    have hset : net.m_vChans.set i pChan = net.m_vChans := by
      rw [← hget]
      exact set_getElem_self hi
    exact congrArg (fun v => { net with m_vChans := v }) hset

theorem insert_replaced_iff {sNick : CString} {Nick : Chan.CNick} (hnick : pChan.chan.findNick sNick = some Nick)
    (New : CNick) : pChan.chan.msNicks.insert sNick (replaced Nick New) = pChan.chan.msNicks ↔ New = Nick.toCNick := by
  rw [OrdMap.insert_eq_self_iff]
  constructor
  · intro hfind
    exact (congrArg Chan.CNick.toCNick (some.inj (hnick.symm.trans hfind))).symm
  · rintro rfl
    exact hnick

variable {net : CIRCNetwork}

theorem onNumeric_some {m : CCryptMod} {i : ℕ} {Nick : Chan.CNick} (hcode : Message.sCommand.toUInt = 332)
    (hfind : net.findChan (Message.getParam 1) = some i) (hchan : net.m_vChans[i]? = some pChan)
    (hnick : pChan.chan.findNick (Message.getParam 0) = some Nick) :
    ∃ Message', m.onNumericMessage cipher net Message =
      some (net.withNicks i pChan (pChan.chan.msNicks.insert (Message.getParam 0)
        (replaced Nick (filteredNick m pChan.sName Nick.toCNick (Message.getParam 2)))), Message') := by
  obtain ⟨sTopic, hfilter⟩ := filterIncoming_some cipher m pChan.sName Nick.toCNick (Message.getParam 2)
  obtain ⟨Message', hset⟩ := setParam_isSome Message 2 (by decide) sTopic
  refine ⟨Message', ?_⟩
  rw [onNumericMessage, if_neg (not_not.2 hcode), hfind]
  dsimp only
  rw [hchan]
  dsimp only
  rw [hnick, map_some, hfilter, bind_some]
  dsimp only
  rw [hset, map_some]

theorem onNumeric_none {m : CCryptMod} {i : ℕ} (hcode : Message.sCommand.toUInt = 332)
    (hfind : net.findChan (Message.getParam 1) = some i) (hchan : net.m_vChans[i]? = some pChan)
    (hnick : pChan.chan.findNick (Message.getParam 0) = none) :
    (∃ Message', m.onNumericMessage cipher net Message = some (net, Message')) ↔
      ¬ ((Message.getParam 2).startsWith (lit "+OK *") = true ∧ (m.m_mssRegistry.find pChan.sName.asLower).isSome) := by
  have hrun : m.onNumericMessage cipher net Message =
      (m.filterIncoming cipher pChan.sName none (Message.getParam 2)).bind fun r =>
        (Message.setParam 2 r.2).map fun Message => (net.withNicks i pChan pChan.chan.msNicks, Message) := by
    rw [onNumericMessage, if_neg (not_not.2 hcode), hfind]
    dsimp only
    rw [hchan]
    dsimp only
    rw [hnick]
    rfl
  rw [hrun, (withNicks_eq_iff hchan _).2 rfl]
  constructor
  · rintro ⟨Message', hsome⟩ hboth
    rw [filterIncoming_crash cipher m hboth] at hsome
    cases hsome
  · intro hboth
    obtain ⟨sTopic, hfilter⟩ := (filterIncoming_none_iff cipher m _ _).2 hboth
    obtain ⟨Message', hset⟩ := setParam_isSome Message 2 (by decide) sTopic
    refine ⟨Message', ?_⟩
    rw [hfilter, bind_some, hset, map_some]

theorem decrypts_iff {m : CCryptMod} {i : ℕ} (hcode : Message.sCommand.toUInt = 332)
    (hfind : net.findChan (Message.getParam 1) = some i) (hchan : net.m_vChans[i]? = some pChan) (P : NetChan → Prop) :
    (∀ j pChan', Decrypts ⟨m, net⟩ Message j pChan' → P pChan') ↔
      ((Message.getParam 2).startsWith (lit "+OK *") = true ∧
        (m.m_mssRegistry.find pChan.sName.asLower).isSome → P pChan) := by
  constructor
  · exact fun hall hboth => hall i pChan ⟨hcode, hfind, hchan, hboth⟩
  · rintro hone j pChan' ⟨-, hfound, hin, hboth⟩
    rw [hfind] at hfound
    obtain rfl := some.inj hfound
    rw [hchan] at hin
    obtain rfl := some.inj hin
    exact hone hboth

theorem filteredNick_eq_iff (Nick : CNick) (sMessage : CString) :
    filteredNick m sTarget Nick sMessage = Nick ↔
      (sMessage.startsWith (lit "+OK *") = true ∧ (m.m_mssRegistry.find sTarget.asLower).isSome →
        m.nickPrefix = []) := by
  rw [filteredNick]
  split_ifs with hboth
  · rw [imp_iff_right hboth]
    constructor
    · intro heq
      exact append_left_eq_self.1 (congrArg CNick.sNick heq)
    · intro hempty
      rw [hempty, nil_append]
  · exact iff_of_true rfl fun hyes => absurd hyes hboth

theorem onNumeric_iff (net : CIRCNetwork) (Message : CMessage) :
    (∃ Message', m.onNumericMessage cipher net Message = some (net, Message')) ↔
      ∀ i pChan, Decrypts ⟨m, net⟩ Message i pChan →
        (pChan.chan.findNick (Message.getParam 0)).isSome ∧ m.nickPrefix = [] := by
  by_cases hcode : Message.sCommand.toUInt = 332
  · cases hfind : net.findChan (Message.getParam 1) with
    | none =>
      refine iff_of_true ⟨Message, ?_⟩ fun i pChan hdec => ?_
      · rw [onNumericMessage, if_neg (not_not.2 hcode), hfind]
      · have hfound := hdec.2.1
        rw [hfind] at hfound
        cases hfound
    | some i =>
      cases hchan : net.m_vChans[i]? with
      | none =>
        refine iff_of_true ⟨Message, ?_⟩ fun j pChan hdec => ?_
        · rw [onNumericMessage, if_neg (not_not.2 hcode), hfind]
          dsimp only
          rw [hchan]
        · obtain ⟨-, hfound, hin, -⟩ := hdec
          rw [hfind] at hfound
          obtain rfl := some.inj hfound
          rw [hchan] at hin
          cases hin
      | some pChan =>
        rw [decrypts_iff hcode hfind hchan fun pChan =>
          (pChan.chan.findNick (Message.getParam 0)).isSome ∧ m.nickPrefix = []]
        cases hnick : pChan.chan.findNick (Message.getParam 0) with
        | none =>
          rw [onNumeric_none cipher hcode hfind hchan hnick]
          simp
        | some Nick =>
          obtain ⟨Message', hrun⟩ := onNumeric_some cipher (m := m) hcode hfind hchan hnick
          have hsame : (∃ M, m.onNumericMessage cipher net Message = some (net, M)) ↔
              filteredNick m pChan.sName Nick.toCNick (Message.getParam 2) = Nick.toCNick := by
            rw [hrun, ← insert_replaced_iff hnick, ← withNicks_eq_iff hchan]
            simp
          rw [hsame, filteredNick_eq_iff]
          simp
  · refine iff_of_true ⟨Message, ?_⟩ fun i pChan hdec => absurd hdec.1 hcode
    rw [onNumericMessage, if_pos hcode]

/-! ## All messages -/

theorem frame_iff (s : St) (t : Turn) : Frame cipher s t ↔ Meets s t := by
  cases t with
  | other mod net => exact Iff.rfl
  | message ev =>
    rw [Frame]
    cases ev with
    | numeric Message =>
      refine Iff.trans ?_ (onNumeric_iff cipher s.mod s.net Message)
      rw [hook]
      constructor
      · rintro ⟨r, hr, hnet⟩
        obtain ⟨⟨net, Message'⟩, hrun, rfl⟩ := map_eq_some_iff.1 hr
        obtain rfl : net = s.net := hnet
        exact ⟨Message', hrun⟩
      · rintro ⟨Message', hrun⟩
        exact ⟨⟨s.mod, s.net, Message', .CONTINUE⟩, by rw [hrun, map_some], rfl⟩
    | user k Msg sIvec =>
      obtain ⟨Msg', hrun⟩ := filterOutgoing_isSome cipher s.mod k Msg sIvec
      exact iff_of_true ⟨⟨s.mod, s.net, Msg', .CONTINUE⟩, by rw [hook, hrun, map_some], rfl⟩ trivial
    | privNotice Message DH =>
      refine iff_of_true ?_ trivial
      rw [hook]
      cases hexchange : s.mod.keyExchange Message.nick (ETextKind.Notice.getText Message) DH with
      | some r => exact ⟨⟨r.1, s.net, Message, r.2⟩, rfl, rfl⟩
      | none =>
        obtain ⟨Message', hrun⟩ := filterMessage_isSome cipher s.mod .Notice Message Message.nick.sNick
        exact ⟨⟨s.mod, s.net, Message', .CONTINUE⟩, by rw [hrun, map_some], rfl⟩
    | privText Message =>
      obtain ⟨Message', hrun⟩ := filterMessage_isSome cipher s.mod .Text Message (s.mod.privTarget Message.nick)
      exact iff_of_true ⟨⟨s.mod, s.net, Message', .CONTINUE⟩, by rw [hook, hrun, map_some], rfl⟩ trivial
    | privAction Message =>
      obtain ⟨Message', hrun⟩ := filterMessage_isSome cipher s.mod .Action Message Message.nick.sNick
      exact iff_of_true ⟨⟨s.mod, s.net, Message', .CONTINUE⟩, by rw [hook, hrun, map_some], rfl⟩ trivial
    | chan k Message sChan =>
      obtain ⟨Message', hrun⟩ := filterMessage_isSome cipher s.mod k Message sChan
      exact iff_of_true ⟨⟨s.mod, s.net, Message', .CONTINUE⟩, by rw [hook, hrun, map_some], rfl⟩ trivial

/-- **The messages leave the network as it is**, in any run and whatever happens between them, exactly if each meets its
condition. -/
theorem frames_iff (turns : List Turn) (s : St) :
    Runs.Steps (step cipher) (Frame cipher) turns s ↔ Runs.Steps (step cipher) Meets turns s := by
  simp only [Runs.steps_iff, frame_iff cipher]

/-! ## Repeated topics -/

theorem topic_step {s : St} {i : ℕ} {Nick : Chan.CNick} (hdec : Decrypts s Message i pChan)
    (hnick : pChan.chan.findNick (Message.getParam 0) = some Nick) :
    (step cipher s (.message (.numeric Message))).mod = s.mod ∧ ∃ pChan' Nick',
      Decrypts (step cipher s (.message (.numeric Message))) Message i pChan' ∧
        pChan'.chan.findNick (Message.getParam 0) = some Nick' ∧ Nick'.sNick = s.mod.nickPrefix ++ Nick.sNick := by
  obtain ⟨hcode, hfind, hchan, hboth⟩ := hdec
  obtain ⟨hi, hget⟩ := List.getElem?_eq_some_iff.1 hchan
  obtain ⟨Message', hrun⟩ := onNumeric_some cipher (m := s.mod) hcode hfind hchan hnick
  have hstep : step cipher s (.message (.numeric Message)) = ⟨s.mod, s.net.withNicks i pChan (pChan.chan.msNicks.insert
      (Message.getParam 0) (replaced Nick (filteredNick s.mod pChan.sName Nick.toCNick (Message.getParam 2))))⟩ := by
    rw [step, hook, hrun]
    rfl
  have hplace : ∀ msNicks, (s.net.withNicks i pChan msNicks).findChan (Message.getParam 1) = some i := by
    intro msNicks
    have hnames : (s.net.withNicks i pChan msNicks).m_vChans.map NetChan.sName = s.net.m_vChans.map NetChan.sName := by
      rw [CIRCNetwork.withNicks, map_set]
      have hname : (s.net.m_vChans.map NetChan.sName)[i]? = some pChan.sName := by rw [getElem?_map, hchan]; rfl
      obtain ⟨hlt, hsame⟩ := List.getElem?_eq_some_iff.1 hname
      dsimp only
      rw [← hsame]
      exact set_getElem_self hlt
    have hby : ∀ l : List NetChan,
      l.findIdx? (fun c => ((Message.getParam 1).trimLeft s.net.sStatusMsg).equals c.sName) =
        (l.map NetChan.sName).findIdx? fun c => ((Message.getParam 1).trimLeft s.net.sStatusMsg).equals c := by
      intro l
      rw [findIdx?_map]
      rfl
    rw [← hfind, CIRCNetwork.findChan, CIRCNetwork.findChan, hby, ← hnames, ← hby]
    rfl
  rw [hstep]
  refine ⟨rfl, _, replaced Nick (filteredNick s.mod pChan.sName Nick.toCNick (Message.getParam 2)),
    ⟨hcode, hplace _, getElem?_set_self hi, hboth⟩, ?_, ?_⟩
  · rw [Chan.CChan.findNick, OrdMap.find_insert, if_pos rfl]
  · rw [replaced, filteredNick, if_pos hboth]

/-- **The damage accumulates**: after `n` topics the nick of the channel has `n` prefixes. -/
theorem topics_grow {s : St} {Message : CMessage} {i : ℕ} {pChan : NetChan} {Nick : Chan.CNick}
    (hdec : Decrypts s Message i pChan)
    (hnick : pChan.chan.findNick (Message.getParam 0) = some Nick) (n : ℕ) :
    ∃ pChan' Nick', Decrypts ((List.replicate n (Turn.message (.numeric Message))).foldl (step cipher) s) Message i pChan' ∧
      pChan'.chan.findNick (Message.getParam 0) = some Nick' ∧
        Nick'.sNick = (List.replicate n s.mod.nickPrefix).flatten ++ Nick.sNick := by
  induction n generalizing s pChan Nick with
  | zero => exact ⟨pChan, Nick, hdec, hnick, rfl⟩
  | succ n ih =>
    obtain ⟨hmod, pChan₁, Nick₁, hdec₁, hnick₁, hname⟩ := topic_step cipher hdec hnick
    obtain ⟨pChan', Nick', hdec', hnick', hname'⟩ := ih hdec₁ hnick₁
    refine ⟨pChan', Nick', hdec', hnick', ?_⟩
    rw [hname', hmod, hname, replicate_succ', flatten_append, flatten_singleton, append_assoc]

/-! ## Failures -/

/-- a channel with a key, and the nicks in it -/
def keyed (msNicks : OrdMap CString Chan.CNick) : St where
  mod := ⟨OrdMap.empty.insert (lit "#c") (lit "key"), [], lit "*", [], []⟩
  net := ⟨CNick.empty.parse (lit "me"), [⟨lit "#c", { Chan.CChan.new with msNicks := msNicks }⟩], []⟩

/-- the topic of the channel: no text, encrypted -/
def topic : CMessage :=
  { CMessage.blank CMessage.stoppedClock with sCommand := lit "332", vsParams := [lit "me", lit "#c", lit "+OK *"] }

theorem topics_grow_three :
    ∃ pChan' Nick', Decrypts ((List.replicate 3 (Turn.message (.numeric topic))).foldl
        (step ⟨fun s _ => s, fun s _ => s⟩)
        (keyed (OrdMap.empty.insert (lit "me") (Chan.CNick.ofMask (lit "me"))))) topic 0 pChan' ∧
      pChan'.chan.findNick (topic.getParam 0) = some Nick' ∧ Nick'.sNick = lit "...me" :=
  have hdec : Decrypts (keyed (OrdMap.empty.insert (lit "me") (Chan.CNick.ofMask (lit "me")))) topic 0 _ :=
    ⟨by decide, by decide, rfl, by decide, by decide⟩
  have hnick : Chan.CChan.findNick _ (topic.getParam 0) = some (Chan.CNick.ofMask (lit "me")) := rfl
  topics_grow _ hdec hnick 3

/-- **A topic renames us in the channel.** -/
theorem topic_renames :
    let cipher : Cipher := ⟨fun s _ => s, fun s _ => s⟩
    let s := keyed (OrdMap.empty.insert (lit "me") (Chan.CNick.ofMask (lit "me")))
    ((step cipher s (.message (.numeric topic))).net.m_vChans.map fun c =>
      (c.chan.msNicks.find (lit "me")).map fun n => n.sNick) =
        [some (lit ".me")] ∧ ¬ Frame cipher s (.message (.numeric topic)) := by
  intro cipher s
  have hgrown : ((step cipher s (.message (.numeric topic))).net.m_vChans.map fun c =>
      (c.chan.msNicks.find (lit "me")).map fun n => n.sNick) = [some (lit ".me")] := by decide
  refine ⟨hgrown, ?_⟩
  rintro ⟨r, hr, hnet⟩
  rw [step, hr] at hgrown
  dsimp only at hgrown
  rw [hnet] at hgrown
  exact absurd hgrown (by decide)

end ZNC.Crypt
