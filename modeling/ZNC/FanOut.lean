/-
What a client's message to several targets leads to: the loops over the targets in `OnTextMessage`, `OnNoticeMessage`,
`OnActionMessage` and `OnTagMessage` of `src/Client.cpp`, with `AddBuffer`, `EchoMessage` and `PutIRCStripping`.

All four store the message, echo it to the clients and send it to the server. Texts and notices make sure of the connection
first. Actions are stored and echoed without one, and tag messages also when the server does not take them.

Model: `Session` is the network with its clients, its connection and the message, whose target the loop sets. The commands
that a message to a status target runs are a parameter: they may change anything but the message, which is the handler's
own. `Session.stored` has the lines that went into a buffer, and `CClient.lines` what `PutClient` was called with. Strings are
shorter than 2^32 bytes.

Results:
- `allOrNothing_iff`: when one target is handled all or nothing;
- `fanOut_iff`: when all targets of a message are;
- `action_not_sent`: an action without a connection.
-/
import ZNC.BufferReplay
import ZNC.Lib.Journal

namespace ZNC.FanOut

open CString Journal List

/-! ## Model -/

/-- the classes of the messages -/
inductive EKind where
  | Text
  | Notice
  | Action
  | TagMsg
deriving DecidableEq

/-- what a client is sent here -/
inductive ClientLine where
  | message (m : CMessage)
  | status (sLine : CString)

structure CClient where
  pThis : ℕ
  bEchoMessage : Bool
  bSelfMessage : Bool
  lines : List ClientLine

namespace CClient

def putClient (client : CClient) (line : ClientLine) : CClient := { client with lines := line :: client.lines }

/-- the messages among the lines -/
def echoes (client : CClient) : List CMessage :=
  client.lines.filterMap fun line =>
    match line with
    | .message m => some m
    | .status _ => none

end CClient

structure CIRCSock where
  bMessageTagCap : Bool

/-- the buffer a line went into -/
inductive Place where
  | chan (pChan : ℕ)
  | query (sName : CString)

/-- a client at `pThis`, its nick and what `GetNickMask` gives, the network with its clients and connection, and the message;
`shared` are the channels, by their places, that the clients share, such as those that the network is on -/
structure Session where
  net : CIRCNetwork
  shared : ℕ → Bool
  sChanPrefixes : CString
  sStatusPrefix : CString
  pIRCSock : Option CIRCSock
  vClients : List CClient
  pThis : ℕ
  sNick : CString
  sNickMask : CString
  message : CMessage
  stored : List (Place × CBufLine)
  sent : List CMessage

def setTarget (m : CMessage) (sTarget : CString) : CMessage := { m with vsParams := sTarget :: m.vsParams.drop 1 }

def namedFmt (s : CString) : CString := escaped .ENAMEDFMT s

/-- `SetText(sText)` of a message with text -/
def setText (m : CMessage) (sParam : CString) : CMessage :=
  { m with vsParams := m.getParam 0 :: sParam :: m.vsParams.drop 2 }.initType

namespace EKind

def getText : EKind → CMessage → CString
  | .Text, m => ETextKind.Text.getText m
  | .Notice, m => ETextKind.Notice.getText m
  | .Action, m => ETextKind.Action.getText m
  | .TagMsg, _ => []

/-- the format message that `AddBuffer` stores; `T` of the source has no text if it is `CTargetMessage` -/
def formatOf (k : EKind) (m : CMessage) (sNickMask : CString) : CMessage :=
  let format := setTarget { m with nick := CNick.empty.parse (namedFmt sNickMask) } (namedFmt (m.getParam 0))
  match k with
  | .Text => setText format (ETextKind.Text.textParam (lit "{text}"))
  | .Notice => setText format (ETextKind.Notice.textParam (lit "{text}"))
  | .Action => setText format (ETextKind.Action.textParam (lit "{text}"))
  | .TagMsg => format

/-- the line that `AddBuffer` stores -/
def lineOf (k : EKind) (m : CMessage) (sNickMask : CString) : CBufLine := ⟨k.formatOf m sNickMask, k.getText m⟩

end EKind

namespace Session

def isChan (s : Session) (sChan : CString) : Bool :=
  match sChan with
  | [] => false
  | c :: _ => s.sChanPrefixes = [] || c ∈ s.sChanPrefixes

/-- the line goes into the buffer, if that holds lines at all -/
def noteStored (s : Session) (b : CBuffer) (place : Place) (line : CBufLine) : Session :=
  if b.uLineCount = 0 then s else { s with stored := (place, line) :: s.stored }

def addBuffer (s : Session) (k : EKind) : Session :=
  let line := k.lineOf s.message s.sNickMask
  match s.net.chanOf s.message with
  | some (pChan, chan) =>
    if !chan.bAutoClearChanBuffer || !s.net.bUserOnline then
      { s with net.vChans := s.net.vChans.modify pChan fun chan =>
          { chan with buffer := chan.buffer.addLine line.message line.sText } }.noteStored chan.buffer (.chan pChan) line
    else s
  | none =>
    if k = .Notice then s
    else if !s.net.bAutoClearQueryBuffer || !s.net.bUserOnline then
      let r := s.net.addQuery (s.message.getParam 0)
      match r.2.bind fun pQuery => r.1.vQueries[pQuery]?.map fun query => (pQuery, query) with
      | none => { s with net := r.1 }
      | some (pQuery, query) =>
        { s with
          net := { r.1 with
            vQueries := r.1.vQueries.modify pQuery fun query =>
              { query with buffer := query.buffer.addLine line.message line.sText } } }.noteStored
          query.buffer (.query query.sName) line
    else s

/-- who gets an echo -/
def due (s : Session) (sTarget : CString) (client : CClient) : Bool :=
  client.bEchoMessage || (client.pThis ≠ s.pThis && (s.isChan sTarget || client.bSelfMessage))

def echoMessage (s : Session) : Session :=
  let echoed := { s.message with nick := CNick.empty.parse s.sNickMask }
  { s with vClients := s.vClients.map fun client =>
      if s.due (s.message.getParam 0) client then client.putClient (.message echoed) else client }

def putIRCStripping (s : Session) : Session :=
  match s.pIRCSock with
  | none => s
  | some sock =>
    let m := { s.message with nick := .empty }
    let m := if sock.bMessageTagCap then m else { m with mssTags := .empty }
    { s with sent := m :: s.sent }

/-- `PutStatus` about a message that got lost, which lagmeters with their messages to the own nick do not get -/
def putLost (s : Session) (sWhat sTarget : CString) : Session :=
  if sTarget.equals s.sNick then s
  else
    { s with vClients := s.vClients.map fun client =>
        if client.pThis = s.pThis then
          client.putClient (.status (lit "Your " ++ sWhat ++ lit " to " ++ s.message.getParam 0 ++
            lit " got lost, you are not connected to IRC!"))
        else client }

/-- what follows from a status target: `UserCommand`, `OnModCommand` or `OnModNotice`, anything but a change of the message -/
def runCommand (onCommand : EKind → CString → Session → Session) (s : Session) (k : EKind)
    (sTarget : CString) : Session :=
  { onCommand k sTarget s with message := s.message }

/-! ### The body of the loops -/

section

variable (onCommand : EKind → CString → Session → Session)

def onTextMessage (s : Session) (sTarget : CString) : Session :=
  if sTarget.startsWith s.sStatusPrefix then
    s.echoMessage.runCommand onCommand .Text (sTarget.trimPrefix_n s.sStatusPrefix)
  else if s.pIRCSock.isNone then s.putLost (lit "message") sTarget
  else ((s.addBuffer .Text).echoMessage).putIRCStripping

def onNoticeMessage (s : Session) (sTarget : CString) : Session :=
  if sTarget.startsWith s.sStatusPrefix then
    let sModule := sTarget.trimPrefix_n s.sStatusPrefix
    if sModule.equals (lit "status") then s.echoMessage else s.echoMessage.runCommand onCommand .Notice sModule
  else if s.pIRCSock.isNone then s.putLost (lit "notice") sTarget
  else ((s.addBuffer .Notice).echoMessage).putIRCStripping

def onActionMessage (s : Session) (sTarget : CString) : Session :=
  if sTarget.startsWith s.sStatusPrefix then s.echoMessage
  else ((s.addBuffer .Action).echoMessage).putIRCStripping

def onTagMessage (s : Session) (sTarget : CString) : Session :=
  if sTarget.startsWith s.sStatusPrefix then s.echoMessage
  else
    let s := (s.addBuffer .TagMsg).echoMessage
    if s.pIRCSock.any fun sock => sock.bMessageTagCap then s.putIRCStripping else s

/-- the body of the loop for a message of class `k` -/
def onTarget (k : EKind) (s : Session) (sTarget : CString) : Session :=
  let s := { s with message := setTarget s.message sTarget }
  match k with
  | .Text => s.onTextMessage onCommand sTarget
  | .Notice => s.onNoticeMessage onCommand sTarget
  | .Action => s.onActionMessage sTarget
  | .TagMsg => s.onTagMessage sTarget

end

end Session

/-- `sTargets.Split(",", vTargets, false)` -/
def targets (m : CMessage) : VCString := (m.getParam 0).split (ch ',') false

/-! ## Statement -/

namespace Session

/-- the line for the server: the target and the client's text, without a source -/
def IsLine (m : CMessage) (sTarget : CString) (line : CMessage) : Prop :=
  line.nick = .empty ∧ line.sCommand = m.sCommand ∧ line.vsParams = sTarget :: m.vsParams.drop 1

/-- the place is the buffer of the channel that the target names, or else, notices apart, the query of the target -/
def Names (s : Session) (k : EKind) (sTarget : CString) : Place → Prop
  | .chan pChan => s.net.findChan sTarget = some pChan
  | .query sName => k ≠ .Notice ∧ s.net.findChan sTarget = none ∧ sTarget.equals sName

/-- nothing was stored -/
def NotStored (s s' : Session) : Prop := s'.stored = s.stored ∧ ∀ l ∈ s'.net.lines, l ∈ s.net.lines

/-- one line was stored, the message, where it belongs -/
def Stored (k : EKind) (m : CMessage) (sTarget : CString) (s s' : Session) : Prop :=
  ∃ place, s'.stored = (place, k.lineOf (setTarget m sTarget) s.sNickMask) :: s.stored ∧ s.Names k sTarget place ∧
    k.lineOf (setTarget m sTarget) s.sNickMask ∈ s'.net.lines

def echoOf (m : CMessage) (sTarget : CString) (s : Session) : CMessage :=
  { setTarget m sTarget with nick := CNick.empty.parse s.sNickMask }

/-- these clients got an echo, and nobody else -/
def Echoed (who : CClient → Bool) (m : CMessage) (sTarget : CString) (s s' : Session) : Prop :=
  s'.vClients.map CClient.echoes =
    s.vClients.map fun client => if who client then echoOf m sTarget s :: client.echoes else client.echoes

/-- the clients share the channel that the target names -/
def shares (s : Session) (sTarget : CString) : Bool := (s.net.findChan sTarget).any s.shared

/-- who is to get an echo -/
def owed (s : Session) (sTarget : CString) (client : CClient) : Bool :=
  client.bEchoMessage || (client.pThis ≠ s.pThis && (client.bSelfMessage || s.shares sTarget))

/-- the message was sent to the target, stored and echoed, or nothing of that -/
def AllOrNothing (k : EKind) (m : CMessage) (sTarget : CString) (s s' : Session) : Prop :=
  (∃ line, s'.sent = line :: s.sent ∧ IsLine m sTarget line ∧ (NotStored s s' ∨ Stored k m sTarget s s') ∧
      Echoed (s.owed sTarget) m sTarget s s') ∨
    (s'.sent = s.sent ∧ NotStored s s' ∧ s'.vClients.map CClient.echoes = s.vClients.map CClient.echoes)

/-- how many lines the query of the target holds, or would hold -/
def queryLineCount (s : Session) (sTarget : CString) : UInt32 :=
  (((s.net.findQuery sTarget).bind (s.net.vQueries[·]?)).map (·.buffer.uLineCount)).getD s.net.uQueryBufferSize

/-- a message to the target is stored -/
def Keeps (s : Session) (k : EKind) (sTarget : CString) : Prop :=
  match (s.net.findChan sTarget).bind (s.net.vChans[·]?) with
  | some chan => (chan.bAutoClearChanBuffer = false ∨ s.net.bUserOnline = false) ∧ chan.buffer.uLineCount ≠ 0
  | none =>
    k ≠ .Notice ∧ (s.net.bAutoClearQueryBuffer = false ∨ s.net.bUserOnline = false) ∧ sTarget ≠ [] ∧
      s.queryLineCount sTarget ≠ 0

/-- a message to the target leaves no trace here: it is not stored, and nobody is due an echo -/
def Idle (s : Session) (k : EKind) (sTarget : CString) : Prop :=
  ¬s.Keeps k sTarget ∧ ∀ client ∈ s.vClients, s.due sTarget client = false

/-- a target that looks like a channel is one that the clients share, and another one is not, unless no client's echo depends
on it -/
def Looks (s : Session) (sTarget : CString) : Prop :=
  s.isChan sTarget = s.shares sTarget ∨
    ∀ client ∈ s.vClients, client.pThis = s.pThis ∨ client.bEchoMessage = true ∨ client.bSelfMessage = true

/-- when a target is handled all or nothing -/
def FanOk (k : EKind) (s : Session) (sTarget : CString) : Prop :=
  match k with
  | .Text | .Notice => s.pIRCSock.isSome = true → s.Looks sTarget
  | .Action => if s.pIRCSock.isSome then s.Looks sTarget else s.Idle k sTarget
  | .TagMsg => if s.pIRCSock.any (·.bMessageTagCap) then s.Looks sTarget else s.Idle k sTarget

/-! ## One target -/

theorem getParam_setTarget (m : CMessage) (sTarget : CString) : (setTarget m sTarget).getParam 0 = sTarget := rfl

theorem addQuery_query (s : Session) {sTarget : CString} (hne : sTarget ≠ []) :
    ∃ pQuery query, (s.net.addQuery sTarget).2 = some pQuery ∧
      (s.net.addQuery sTarget).1.vQueries[pQuery]? = some query ∧
      sTarget.equals query.sName ∧ query.buffer.uLineCount = s.queryLineCount sTarget := by
  unfold CIRCNetwork.addQuery queryLineCount
  rw [if_neg hne]
  cases hfind : s.net.findQuery sTarget with
  | some i =>
    obtain ⟨hi, hequals, -⟩ := findIdx?_eq_some_iff_getElem.1 hfind
    have hat : s.net.vQueries[i]? = some s.net.vQueries[i] := getElem?_eq_getElem hi
    refine ⟨i, s.net.vQueries[i], rfl, hat, hequals, ?_⟩
    rw [Option.bind_some, hat]
    rfl
  | none =>
    set new : CQuery := ⟨sTarget, ⟨[], s.net.uQueryBufferSize⟩⟩
    have hlast : ∀ d ≤ s.net.vQueries.length,
        ((s.net.vQueries ++ [new]).drop d)[((s.net.vQueries ++ [new]).drop d).length - 1]? = some new := by
      intro d hd
      rw [← getLast?_eq_getElem?, drop_append_of_le_length hd, getLast?_concat]
    refine ⟨_, new, rfl, ?_, equals_refl _, rfl⟩
    dsimp only
    by_cases hmax : 0 < s.net.uMaxQueryBuffers
    · rw [if_pos hmax]
      refine hlast _ ?_
      rw [length_append, length_singleton]
      omega
    · rw [if_neg hmax]
      exact hlast 0 (Nat.zero_le _)

theorem noteStored_spec (s : Session) (b : CBuffer) (place : Place) (line : CBufLine) :
    s.noteStored b place line =
      { s with stored := if b.uLineCount = 0 then s.stored else (place, line) :: s.stored } := by
  unfold noteStored
  split_ifs <;> rfl

theorem findChan_of_chanOf {net : CIRCNetwork} {m : CMessage} (h : net.chanOf m = none) :
    net.findChan (m.getParam 0) = none := by
  cases hfind : net.findChan (m.getParam 0) with
  | none => rfl
  | some i =>
    obtain ⟨hi, -, -⟩ := findIdx?_eq_some_iff_getElem.1 hfind
    rw [CIRCNetwork.chanOf, hfind, Option.bind_some, getElem?_eq_getElem hi] at h
    cases h

theorem addLine_lines {α : Type} {L : List α} {i : ℕ} {a : α} (ha : L[i]? = some a) (buffer : α → CBuffer) (f : α → α)
    (line : CBufLine) (hf : buffer (f a) = (buffer a).addLine line.message line.sText) :
    ((buffer a).uLineCount ≠ 0 → line ∈ (L.modify i f).flatMap fun a => (buffer a).lines) ∧
      ((buffer a).uLineCount = 0 →
        ∀ l ∈ (L.modify i f).flatMap (fun a => (buffer a).lines), l ∈ L.flatMap fun a => (buffer a).lines) := by
  have hmod := mem_flatMap_modify ha f fun a => (buffer a).lines
  refine ⟨fun h => (hmod line).2 ?_, fun h l hl => ?_⟩
  · rw [hf]
    exact CBuffer.mem_addLine h line.message line.sText
  · rcases (hmod l).1 hl with hold | hnew
    · exact hold
    · rw [hf, CBuffer.addLine, if_pos h] at hnew
      exact mem_flatMap.2 ⟨a, mem_of_getElem? ha, hnew⟩

theorem chan_lines {net : CIRCNetwork} {pChan : ℕ} {chan : CChan}
    (hchan : net.vChans[pChan]? = some chan) (line : CBufLine)
    {net' : CIRCNetwork}
    (hnet : net' = { net with vChans := net.vChans.modify pChan fun chan =>
      { chan with buffer := chan.buffer.addLine line.message line.sText } }) :
    (chan.buffer.uLineCount ≠ 0 → line ∈ net'.lines) ∧
      (chan.buffer.uLineCount = 0 → ∀ l ∈ net'.lines, l ∈ net.lines) := by
  obtain ⟨hin, hsame⟩ := addLine_lines hchan CChan.buffer
    (fun chan => { chan with buffer := chan.buffer.addLine line.message line.sText }) line rfl
  subst hnet
  simp only [CIRCNetwork.lines, mem_append]
  exact ⟨fun h => .inl (.inl (hin h)), fun h l hl => hl.imp_left fun hl => hl.imp_left (hsame h l)⟩

theorem query_lines {net : CIRCNetwork} {pQuery : ℕ} {query : CQuery} (hquery : net.vQueries[pQuery]? = some query)
    (line : CBufLine) {net' : CIRCNetwork}
    (hnet : net' = { net with vQueries := net.vQueries.modify pQuery fun query =>
      { query with buffer := query.buffer.addLine line.message line.sText } }) :
    (query.buffer.uLineCount ≠ 0 → line ∈ net'.lines) ∧
      (query.buffer.uLineCount = 0 → ∀ l ∈ net'.lines, l ∈ net.lines) := by
  obtain ⟨hin, hsame⟩ := addLine_lines hquery CQuery.buffer
    (fun query => { query with buffer := query.buffer.addLine line.message line.sText }) line rfl
  subst hnet
  simp only [CIRCNetwork.lines, mem_append]
  exact ⟨fun h => .inl (.inr (hin h)), fun h l hl => hl.imp_left fun hl => hl.imp_right (hsame h l)⟩

/-- **`AddBuffer`** touches the buffers only, and stores one line where it belongs or none. -/
theorem addBuffer_spec (s : Session) (k : EKind) :
    ∃ net stored, s.addBuffer k = { s with net := net, stored := stored } ∧
      (s.Keeps k (s.message.getParam 0) →
        ∃ place, stored = (place, k.lineOf s.message s.sNickMask) :: s.stored ∧ s.Names k (s.message.getParam 0) place ∧
          k.lineOf s.message s.sNickMask ∈ net.lines) ∧
      (¬s.Keeps k (s.message.getParam 0) → stored = s.stored ∧ ∀ l ∈ net.lines, l ∈ s.net.lines) := by
  set sTarget := s.message.getParam 0 with htarget
  unfold addBuffer Keeps
  dsimp only
  set line := k.lineOf s.message s.sNickMask
  cases hchan : s.net.chanOf s.message with
  | some r =>
    obtain ⟨pChan, chan⟩ := r
    obtain ⟨i, hi, hat⟩ := Option.bind_eq_some_iff.1 hchan
    obtain ⟨c, hc, heq⟩ := Option.map_eq_some_iff.1 hat
    obtain ⟨rfl, rfl⟩ := Prod.mk.inj heq
    rw [← htarget] at hi
    rw [hi, Option.bind_some, hc]
    dsimp only
    split_ifs with hkeep
    · rw [noteStored_spec]
      obtain ⟨hin, hsame⟩ := chan_lines hc line rfl
      refine ⟨_, _, rfl, fun h => ?_, fun h => ?_⟩
      · rw [if_neg h.2]
        exact ⟨_, rfl, hi, hin h.2⟩
      · have hcount : c.buffer.uLineCount = 0 := by
          by_contra hne
          exact h ⟨by simpa using hkeep, hne⟩
        rw [if_pos hcount]
        exact ⟨rfl, hsame hcount⟩
    · refine ⟨s.net, s.stored, rfl, fun h => ?_, fun _ => ⟨rfl, fun _ hl => hl⟩⟩
      exact absurd (by simpa using h.1) hkeep
  | none =>
    have hnone : s.net.findChan sTarget = none := findChan_of_chanOf hchan
    rw [hnone, Option.bind_none]
    dsimp only
    split_ifs with hnotice hkeep
    · exact ⟨s.net, s.stored, rfl, fun h => absurd hnotice h.1, fun _ => ⟨rfl, fun _ hl => hl⟩⟩
    · rw [← htarget]
      by_cases hempty : sTarget = []
      · have hadd : s.net.addQuery sTarget = (s.net, none) := by rw [CIRCNetwork.addQuery, if_pos hempty]
        rw [hadd]
        exact ⟨s.net, s.stored, rfl, fun h => absurd hempty h.2.2.1, fun _ => ⟨rfl, fun _ hl => hl⟩⟩
      · obtain ⟨pQuery, query, hplace, hquery, hequals, hcount⟩ := s.addQuery_query hempty
        have hold : ∀ l ∈ (s.net.addQuery sTarget).1.lines, l ∈ s.net.lines := by
          obtain ⟨net', i, q, hadd, -, hlines, -⟩ := s.net.addQuery_spec hempty
          rw [hadd]
          exact hlines
        rw [hplace, Option.bind_some, hquery, Option.map_some]
        dsimp only
        rw [noteStored_spec, hcount]
        obtain ⟨hin, hsame⟩ := query_lines hquery line rfl
        rw [hcount] at hin hsame
        refine ⟨_, _, rfl, fun h => ?_, fun h => ?_⟩
        · rw [if_neg h.2.2.2]
          exact ⟨_, rfl, ⟨hnotice, hnone, hequals⟩, hin h.2.2.2⟩
        · have hzero : s.queryLineCount sTarget = 0 := by
            by_contra hne
            exact h ⟨hnotice, by simpa using hkeep, hempty, hne⟩
          rw [if_pos hzero]
          exact ⟨rfl, fun l hl => hold l (hsame hzero l hl)⟩
    · refine ⟨s.net, s.stored, rfl, fun h => ?_, fun _ => ⟨rfl, fun _ hl => hl⟩⟩
      exact absurd (by simpa using h.2.1) hkeep

/-! ### The echoes -/

theorem echoes_putMessage (client : CClient) (m : CMessage) :
    (client.putClient (.message m)).echoes = m :: client.echoes := rfl

theorem echoes_putStatus (client : CClient) (sLine : CString) :
    (client.putClient (.status sLine)).echoes = client.echoes := rfl

/-- **`EchoMessage`** -/
theorem echoMessage_echoes (s : Session) :
    s.echoMessage.vClients.map CClient.echoes =
      s.vClients.map fun client =>
        if s.due (s.message.getParam 0) client then { s.message with nick := CNick.empty.parse s.sNickMask } :: client.echoes
        else client.echoes := by
  rw [echoMessage, map_map]
  refine map_congr_left fun client _ => ?_
  rw [Function.comp_apply]
  split_ifs
  · rw [echoes_putMessage]
  · rfl

theorem putLost_echoes (s : Session) (sWhat sTarget : CString) :
    (s.putLost sWhat sTarget).vClients.map CClient.echoes = s.vClients.map CClient.echoes := by
  unfold putLost
  split_ifs
  · rfl
  · rw [map_map]
    refine map_congr_left fun client _ => ?_
    rw [Function.comp_apply]
    split_ifs
    · rw [echoes_putStatus]
    · rfl

/-- the line that `PutIRCStripping` sends -/
def strippedOf (m : CMessage) (sock : CIRCSock) : CMessage :=
  let m := { m with nick := .empty }
  if sock.bMessageTagCap then m else { m with mssTags := .empty }

theorem putIRCStripping_some {s : Session} {sock : CIRCSock} (h : s.pIRCSock = some sock) :
    s.putIRCStripping = { s with sent := strippedOf s.message sock :: s.sent } := by
  rw [putIRCStripping, h]
  rfl

theorem strippedOf_isLine (m : CMessage) (sTarget : CString) (sock : CIRCSock) :
    IsLine m sTarget (strippedOf (setTarget m sTarget) sock) := by
  unfold strippedOf
  dsimp only
  split_ifs <;> exact ⟨rfl, rfl, rfl⟩

/-! ### All or nothing -/

section

variable {s : Session} {k : EKind} {m : CMessage} {sTarget : CString}

theorem storeAndEcho_spec (hm : s.message = setTarget m sTarget) :
    ∃ s', (s.addBuffer k).echoMessage = s' ∧ s'.pIRCSock = s.pIRCSock ∧ s'.message = s.message ∧ s'.sent = s.sent ∧
      Echoed (s.due sTarget) m sTarget s s' ∧ (NotStored s s' ∨ Stored k m sTarget s s') ∧
        (NotStored s s' ↔ ¬s.Keeps k sTarget) := by
  obtain ⟨net, stored, hadd, hkeeps, hnot⟩ := s.addBuffer_spec k
  have htarget : s.message.getParam 0 = sTarget := by rw [hm, getParam_setTarget]
  rw [htarget] at hkeeps hnot
  rw [hm] at hkeeps
  refine ⟨_, rfl, ?_, ?_, ?_, ?_, ?_, ?_⟩
  · rw [hadd]
    rfl
  · rw [hadd]
    rfl
  · rw [hadd]
    rfl
  · rw [Echoed, hadd, echoMessage_echoes]
    dsimp only
    rw [htarget, hm]
    rfl
  · rw [NotStored, Stored, hadd]
    by_cases hk : s.Keeps k sTarget
    · exact .inr (hkeeps hk)
    · exact .inl (hnot hk)
  · rw [NotStored, hadd]
    by_cases hk : s.Keeps k sTarget
    · obtain ⟨place, hstored, -, -⟩ := hkeeps hk
      refine iff_of_false (fun h => ?_) (not_not_intro hk)
      exact cons_ne_self _ _ (hstored.symm.trans h.1)
    · exact iff_of_true (hnot hk) hk

/-- the echoes that are made are those that are to be made -/
theorem echoed_iff {s' : Session} (h : Echoed (s.due sTarget) m sTarget s s') :
    Echoed (s.owed sTarget) m sTarget s s' ↔ s.Looks sTarget := by
  have hsame : Echoed (s.owed sTarget) m sTarget s s' ↔
      ∀ client ∈ s.vClients, s.due sTarget client = s.owed sTarget client := by
    rw [Echoed, h, map_inj_left]
    refine forall₂_congr fun client _ => ?_
    cases s.due sTarget client <;> cases s.owed sTarget client <;> simp
  have hone : ∀ client : CClient, s.due sTarget client = s.owed sTarget client ↔ s.isChan sTarget = s.shares sTarget ∨
      client.pThis = s.pThis ∨ client.bEchoMessage = true ∨ client.bSelfMessage = true := by
    intro client
    rw [due, owed]
    by_cases hthis : client.pThis = s.pThis
    · simp [hthis]
    · cases client.bEchoMessage <;> cases client.bSelfMessage <;> cases s.isChan sTarget <;> cases s.shares sTarget <;>
        simp [hthis]
  rw [hsame, Looks]
  by_cases hlook : s.isChan sTarget = s.shares sTarget
  · exact iff_of_true (fun client _ => (hone client).2 (.inl hlook)) (.inl hlook)
  · rw [or_iff_right hlook]
    exact forall₂_congr fun client _ => (hone client).trans (or_iff_right hlook)

theorem sent_allOrNothing_iff (hm : s.message = setTarget m sTarget) {sock : CIRCSock} (hsock : s.pIRCSock = some sock) :
    AllOrNothing k m sTarget s ((s.addBuffer k).echoMessage).putIRCStripping ↔ s.Looks sTarget := by
  obtain ⟨s', heq, hsock', hmessage, hsent, hechoed, hstored, -⟩ := storeAndEcho_spec (k := k) hm
  rw [heq, putIRCStripping_some (hsock'.trans hsock), hmessage, hm, hsent, ← echoed_iff hechoed]
  constructor
  · rintro (⟨line, -, -, -, hechoed⟩ | ⟨hnone, -⟩)
    · exact hechoed
    · exact absurd hnone (cons_ne_self _ _)
  · exact fun h => .inl ⟨strippedOf (setTarget m sTarget) sock, rfl, strippedOf_isLine m sTarget sock, hstored, h⟩

theorem unsent_allOrNothing_iff (hm : s.message = setTarget m sTarget) :
    AllOrNothing k m sTarget s (s.addBuffer k).echoMessage ↔ s.Idle k sTarget := by
  obtain ⟨s', heq, -, -, hsent, hechoed, -, hstored⟩ := storeAndEcho_spec (k := k) hm
  have hnobody : s'.vClients.map CClient.echoes = s.vClients.map CClient.echoes ↔
      ∀ client ∈ s.vClients, s.due sTarget client = false := by
    rw [hechoed, map_inj_left]
    refine forall₂_congr fun client _ => ?_
    cases s.due sTarget client <;> simp
  rw [heq, AllOrNothing, hstored, hnobody]
  constructor
  · rintro (⟨line, hline, -⟩ | ⟨-, hidle⟩)
    · rw [hsent] at hline
      exact absurd hline.symm (cons_ne_self _ _)
    · exact hidle
  · intro hidle
    exact .inr ⟨hsent, hidle⟩

theorem lost_allOrNothing (k : EKind) (m : CMessage) (s : Session) (sWhat sTarget : CString) :
    AllOrNothing k m sTarget s (s.putLost sWhat sTarget) := by
  refine .inr ⟨?_, ?_, putLost_echoes s sWhat sTarget⟩
  · unfold putLost
    split_ifs <;> rfl
  · unfold putLost
    split_ifs <;> exact ⟨rfl, fun _ hl => hl⟩

end

theorem allOrNothing_iff (onCommand : EKind → CString → Session → Session) (k : EKind) (m : CMessage) (s : Session)
    (sTarget : CString) (hm : setTarget s.message sTarget = setTarget m sTarget)
    (hstatus : sTarget.startsWith s.sStatusPrefix = false) :
    AllOrNothing k m sTarget s (onTarget onCommand k s sTarget) ↔ FanOk k s sTarget := by
  -- the property does not look at the message in the state before
  set s1 : Session := { s with message := setTarget s.message sTarget } with hs1
  have hm1 : s1.message = setTarget m sTarget := hm
  have hstatus1 : ¬sTarget.startsWith s1.sStatusPrefix = true := by
    rw [hs1, hstatus]
    decide
  show AllOrNothing k m sTarget s1 (onTarget onCommand k s sTarget) ↔ FanOk k s1 sTarget
  cases k with
  | Text =>
    show AllOrNothing .Text m sTarget s1 (s1.onTextMessage onCommand sTarget) ↔ (s1.pIRCSock.isSome = true → s1.Looks sTarget)
    rw [onTextMessage, if_neg hstatus1]
    cases hsock : s1.pIRCSock with
    | none => exact iff_of_true (lost_allOrNothing .Text m s1 _ sTarget) fun h => nomatch h
    | some sock => exact (sent_allOrNothing_iff hm1 hsock).trans ⟨fun h _ => h, fun h => h rfl⟩
  | Notice =>
    show AllOrNothing .Notice m sTarget s1 (s1.onNoticeMessage onCommand sTarget) ↔
      (s1.pIRCSock.isSome = true → s1.Looks sTarget)
    rw [onNoticeMessage, if_neg hstatus1]
    cases hsock : s1.pIRCSock with
    | none => exact iff_of_true (lost_allOrNothing .Notice m s1 _ sTarget) fun h => nomatch h
    | some sock => exact (sent_allOrNothing_iff hm1 hsock).trans ⟨fun h _ => h, fun h => h rfl⟩
  | Action =>
    show AllOrNothing .Action m sTarget s1 (s1.onActionMessage sTarget) ↔
      if s1.pIRCSock.isSome then s1.Looks sTarget else s1.Idle .Action sTarget
    rw [onActionMessage, if_neg hstatus1]
    cases hsock : s1.pIRCSock with
    | none =>
      obtain ⟨s2, heq, hsock2, -⟩ := storeAndEcho_spec (k := .Action) hm1
      have hput : ((s1.addBuffer .Action).echoMessage).putIRCStripping = (s1.addBuffer .Action).echoMessage := by
        rw [heq, putIRCStripping, hsock2, hsock]
      rw [hput, unsent_allOrNothing_iff hm1]
      exact Iff.rfl
    | some sock => exact sent_allOrNothing_iff hm1 hsock
  | TagMsg =>
    show AllOrNothing .TagMsg m sTarget s1 (s1.onTagMessage sTarget) ↔
      if s1.pIRCSock.any (·.bMessageTagCap) then s1.Looks sTarget else s1.Idle .TagMsg sTarget
    obtain ⟨s2, heq, hsock2, -⟩ := storeAndEcho_spec (k := .TagMsg) hm1
    have hsame : ((s1.addBuffer .TagMsg).echoMessage).pIRCSock = s1.pIRCSock := by rw [heq, hsock2]
    rw [onTagMessage, if_neg hstatus1]
    dsimp only
    rw [hsame]
    cases htake : s1.pIRCSock.any (·.bMessageTagCap) with
    | false =>
      rw [if_neg (by decide), if_neg (by decide)]
      exact unsent_allOrNothing_iff hm1
    | true =>
      obtain ⟨sock, hsock, -⟩ := (Option.any_eq_true _ _).1 htake
      rw [if_pos rfl, if_pos rfl]
      exact sent_allOrNothing_iff hm1 hsock

/-! ## All targets -/

@[simp] theorem echoMessage_message (s : Session) : s.echoMessage.message = s.message := rfl

@[simp] theorem runCommand_message (onCommand : EKind → CString → Session → Session) (s : Session) (k : EKind)
    (sTarget : CString) : (s.runCommand onCommand k sTarget).message = s.message := rfl

@[simp] theorem addBuffer_message (s : Session) (k : EKind) : (s.addBuffer k).message = s.message := by
  obtain ⟨net, stored, hadd, -⟩ := s.addBuffer_spec k
  rw [hadd]

@[simp] theorem putIRCStripping_message (s : Session) : s.putIRCStripping.message = s.message := by
  unfold putIRCStripping
  cases s.pIRCSock <;> rfl

@[simp] theorem putLost_message (s : Session) (sWhat sTarget : CString) :
    (s.putLost sWhat sTarget).message = s.message := by
  unfold putLost
  split_ifs <;> rfl

theorem onTarget_message (onCommand : EKind → CString → Session → Session) (k : EKind) (s : Session)
    (sTarget : CString) :
    (onTarget onCommand k s sTarget).message = setTarget s.message sTarget := by
  cases k with
  | Text =>
    simp only [onTarget, onTextMessage]
    split_ifs <;> simp
  | Notice =>
    simp only [onTarget, onNoticeMessage]
    split_ifs <;> simp
  | Action =>
    simp only [onTarget, onActionMessage]
    split_ifs <;> simp
  | TagMsg =>
    simp only [onTarget, onTagMessage]
    split_ifs <;> simp

/-- **The targets of a message**, in order: each that is no status target is handled all or nothing exactly if each meets
`FanOk` when its turn comes. -/
theorem fanOut_iff (onCommand : EKind → CString → Session → Session) (k : EKind) (s : Session) :
    Along (onTarget onCommand k)
        (fun _ s' sTarget => sTarget.startsWith s'.sStatusPrefix = false →
          AllOrNothing k s.message sTarget s' (onTarget onCommand k s' sTarget)) (targets s.message) s ↔
      Along (onTarget onCommand k)
        (fun _ s' sTarget => sTarget.startsWith s'.sStatusPrefix = false → FanOk k s' sTarget)
        (targets s.message) s := by
  refine along_congr _ (fun s' => setTarget s'.message [] = setTarget s.message []) ?_ ?_ _ _ rfl
  · intro s' sTarget h
    rw [onTarget_message]
    exact h
  · intro _ s' sTarget h
    refine forall_congr' fun hstatus => allOrNothing_iff onCommand k s.message s' sTarget ?_ hstatus
    calc
      setTarget s'.message sTarget = setTarget (setTarget s'.message []) sTarget := rfl
      _ = setTarget (setTarget s.message []) sTarget := by rw [h]
      _ = setTarget s.message sTarget := rfl

end Session

/-! ### An action without a connection -/

/-- a client with echo-message sends an action to bob, while there is no connection -/
def waving : Session where
  net := ⟨lit "me", [], true, true, 50, 50, [], [], ⟨[], 250⟩⟩
  shared := fun _ => true
  sChanPrefixes := lit "#"
  sStatusPrefix := lit "*"
  pIRCSock := none
  vClients := [⟨1, true, false, []⟩]
  pThis := 1
  sNick := lit "me"
  sNickMask := lit "me!u@h"
  message :=
    ⟨.empty, lit "PRIVMSG", [lit "bob", CMessage.soh ++ lit "ACTION waves" ++ CMessage.soh], .empty,
      ⟨0, 0⟩, .Action, true⟩
  stored := []
  sent := []

/-- **Echoed, but not sent.** -/
theorem action_not_sent :
    ¬Along (Session.onTarget (fun _ _ s => s) .Action)
      (fun _ s' sTarget => sTarget.startsWith s'.sStatusPrefix = false →
        Session.AllOrNothing .Action waving.message sTarget s' (Session.onTarget (fun _ _ s => s) .Action s' sTarget))
      (targets waving.message) waving := by
  have htargets : targets waving.message = [lit "bob"] := by decide
  rw [htargets, Along]
  intro h
  have hall := h.1 (by decide)
  rw [Session.allOrNothing_iff (fun _ _ s => s) .Action waving.message waving (lit "bob") rfl (by decide)] at hall
  have hidle : waving.Idle .Action (lit "bob") := hall
  exact absurd (hidle.2 _ mem_cons_self) (by decide)

end ZNC.FanOut
