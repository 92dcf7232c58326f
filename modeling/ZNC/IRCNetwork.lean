/-
What an IRC network does with a message of the server: `OnTextMessage`, `OnNoticeMessage` and `OnActionMessage` of
`src/IRCSock.cpp`, with the channels, queries and buffers of `src/IRCNetwork.cpp`, `src/Chan.cpp` and `src/Query.cpp` that
they use.

A message to the own nick goes to a query or to the notice buffer, any other to the channel it names. It is stored as a
template with its text beside it, if nobody is there to read it or the buffers are kept anyway. Before that the sender of a
channel message is completed from the nicks of the channel, and the modules see the message: `hooks` is what they make of
it, `none` when one of them stops it.

Results:
- `fixupChanNick_eq`: a sender with user and host stays as it is, whatever the channel knows about the nick.
-/
import ZNC.Buffer

namespace ZNC

open CString

/-! ## Channels -/

/-- the nicks of a `CChan`, each under its own nick -/
structure CChanNicks where
  msNicks : OrdMap CString CNick
  own : ∀ sNick n, msNicks.find sNick = some n → n.sNick = sNick

namespace CChanNicks

def empty : CChanNicks where
  msNicks := .empty
  own := by
    intro sNick n h
    rw [OrdMap.find_empty] at h
    cases h

def findNick (c : CChanNicks) (sNick : CString) : Option CNick := c.msNicks.find sNick

/-- `m_msNicks[nick.GetNick()] = nick` -/
def setNick (c : CChanNicks) (n : CNick) : CChanNicks where
  msNicks := c.msNicks.insert n.sNick n
  own := by
    intro sNick n' h
    rw [OrdMap.find_insert] at h
    split_ifs at h with hk
    · rw [hk, ← Option.some.inj h]
    · exact c.own sNick n' h

def remNick (c : CChanNicks) (sNick : CString) : CChanNicks where
  msNicks := c.msNicks.erase sNick
  own := by
    intro sNick' n h
    rw [OrdMap.find_erase] at h
    split_ifs at h with hk
    exact c.own sNick' n h

def changeNick (c : CChanNicks) (sOldNick sNewNick : CString) : CChanNicks :=
  match c.findNick sOldNick with
  | none => c
  | some n => (c.setNick { n with sNick := sNewNick }).remNick sOldNick

end CChanNicks

structure CChan where
  sName : CString
  nicks : CChanNicks
  bDetached : Bool
  bAutoClearChanBuffer : Bool
  buffer : CBuffer

structure CQuery where
  sName : CString
  buffer : CBuffer

/-- `CIRCNetwork` with the nick and the STATUSMSG prefixes of its socket and the settings of its user -/
structure CIRCNetwork where
  sNick : CString
  sStatusMsg : CString
  bUserOnline : Bool
  bAutoClearQueryBuffer : Bool
  uMaxQueryBuffers : ℕ
  uQueryBufferSize : UInt32
  vChans : List CChan
  vQueries : List CQuery
  noticeBuffer : CBuffer

def fixupChanNick (nick : CNick) (chan : CChan) : CNick × CChan :=
  match chan.nicks.findNick nick.sNick with
  | none => (nick, chan)
  | some chanNick =>
    let chanNick := if nick.sIdent ≠ [] then { chanNick with sIdent := nick.sIdent } else chanNick
    let chanNick := if nick.sHost ≠ [] then { chanNick with sHost := nick.sHost } else chanNick
    (chanNick, { chan with nicks := chan.nicks.setNick chanNick })

theorem fixupChanNick_eq (nick : CNick) (chan : CChan) (hi : nick.sIdent ≠ []) (hh : nick.sHost ≠ []) :
    (fixupChanNick nick chan).1 = nick ∧ (fixupChanNick nick chan).2.buffer = chan.buffer ∧
      (fixupChanNick nick chan).2.bAutoClearChanBuffer = chan.bAutoClearChanBuffer ∧
      (fixupChanNick nick chan).2.bDetached = chan.bDetached := by
  unfold fixupChanNick
  cases h : chan.nicks.findNick nick.sNick with
  | none => exact ⟨rfl, rfl, rfl, rfl⟩
  | some chanNick =>
    have hown : chanNick.sNick = nick.sNick := chan.nicks.own _ _ h
    simp only [if_pos hi, if_pos hh, and_true]
    exact CNick.ext hown rfl rfl

namespace CIRCNetwork

/-- `FindChan(sName)`: the place of the channel -/
def findChan (net : CIRCNetwork) (sName : CString) : Option ℕ :=
  net.vChans.findIdx? fun chan => (sName.trimLeft net.sStatusMsg).equals chan.sName

/-- `FindQuery(sName)`: the place of the query -/
def findQuery (net : CIRCNetwork) (sName : CString) : Option ℕ :=
  net.vQueries.findIdx? fun query => sName.equals query.sName

/-- `AddQuery(sName)`: the place of the query, an old or a new one; the oldest make room for a new one -/
def addQuery (net : CIRCNetwork) (sName : CString) : CIRCNetwork × Option ℕ :=
  if sName = [] then (net, none)
  else
    match net.findQuery sName with
    | some i => (net, some i)
    | none =>
      let vQueries := net.vQueries ++ [⟨sName, ⟨[], net.uQueryBufferSize⟩⟩]
      let vQueries :=
        if 0 < net.uMaxQueryBuffers then vQueries.drop (vQueries.length - net.uMaxQueryBuffers) else vQueries
      ({ net with vQueries := vQueries }, some (vQueries.length - 1))

/-- the lines of all buffers -/
def lines (net : CIRCNetwork) : List CBufLine :=
  net.vChans.flatMap (·.buffer.lines) ++ net.vQueries.flatMap (·.buffer.lines) ++ net.noticeBuffer.lines

end CIRCNetwork

/-! ## Messages with a target and a text -/

/-- `CTextMessage`, `CNoticeMessage` and `CActionMessage` -/
inductive ETextKind where
  | Text
  | Notice
  | Action
deriving DecidableEq, Repr

namespace ETextKind

/-- what stands before an action's text -/
def sAction : CString := CMessage.soh ++ lit "ACTION "

def getText : ETextKind → CMessage → CString
  | .Action, m => ((m.getParam 1).trimPrefix_n sAction).trimSuffix_n CMessage.soh
  | _, m => m.getParam 1

/-- the parameter that `SetText(sText)` writes -/
def textParam : ETextKind → CString → CString
  | .Action, sText => sAction ++ sText ++ CMessage.soh
  | _, sText => sText

def setText (k : ETextKind) (m : CMessage) (sText : CString) : Option CMessage := m.setParam 1 (k.textParam sText)

def namedFmt (s : CString) : Option CString := s.escape_n .EASCII .ENAMEDFMT

/-- the format message that is stored for `m` -/
def formatOf (k : ETextKind) (m : CMessage) (sTarget : CString) : Option CMessage :=
  (namedFmt m.nick.getNickMask).bind fun sMask =>
    (CMessage.setParam { m with nick := CNick.empty.parse sMask } 0 sTarget).bind fun format =>
      k.setText format (lit "{text}")

end ETextKind

/-! ## Handlers -/

namespace CIRCNetwork

open ETextKind

/-- the line for a text or action to the own nick: into the query of the sender -/
def bufferQuery (net : CIRCNetwork) (k : ETextKind) (m : CMessage) : Option CIRCNetwork :=
  if net.bUserOnline && net.bAutoClearQueryBuffer then some net
  else
    match net.addQuery m.nick.sNick with
    | (net, none) => some net
    | (net, some i) =>
      (formatOf k m (lit "{target}")).map fun format =>
        { net with vQueries := net.vQueries.modify i fun query =>
            { query with buffer := query.buffer.addLine format (k.getText m) } }

/-- the line for a message to the own nick, behind the module hooks -/
def bufferPrivate (net : CIRCNetwork) (k : ETextKind) (m : CMessage) : Option CIRCNetwork :=
  match k with
  | .Notice =>
    -- notices go to one buffer, and only when nobody is there
    if net.bUserOnline then some net
    else
      (formatOf k m (lit "{target}")).map fun format =>
        { net with noticeBuffer := net.noticeBuffer.addLine format (k.getText m) }
  | _ => net.bufferQuery k m

/-- the line for a message to the channel at `i`, behind the module hooks -/
def bufferChannel (net : CIRCNetwork) (k : ETextKind) (i : ℕ) (chan : CChan) (m : CMessage) : Option CIRCNetwork :=
  if !chan.bAutoClearChanBuffer || !net.bUserOnline || chan.bDetached then
    (namedFmt (m.getParam 0)).bind fun sTarget =>
      (formatOf k m sTarget).map fun format =>
        { net with vChans := net.vChans.set i { chan with buffer := chan.buffer.addLine format (k.getText m) } }
  else some { net with vChans := net.vChans.set i chan }

/-- `sTarget.Equals(GetNick())` -/
def isPrivate (net : CIRCNetwork) (m : CMessage) : Bool := (m.getParam 0).equals net.sNick

/-- the channel that `m` goes to, with its place -/
def chanOf (net : CIRCNetwork) (m : CMessage) : Option (ℕ × CChan) :=
  (net.findChan (m.getParam 0)).bind fun i => (net.vChans[i]?).map fun chan => (i, chan)

/-- `OnTextMessage`, `OnNoticeMessage`, `OnActionMessage`: the network afterwards, and whether the clients do not get the
message -/
def onMessage (hooks : CMessage → Option CMessage) (k : ETextKind) (net : CIRCNetwork) (m : CMessage) :
    Option (CIRCNetwork × Bool) :=
  if net.isPrivate m then
    match hooks m with
    | none => some (net, true)
    | some m => (net.bufferPrivate k m).map fun net => (net, false)
  else
    match net.chanOf m with
    | none => some (net, false)
    | some (i, chan) =>
      let fixed := fixupChanNick m.nick chan
      match hooks { m with nick := fixed.1 } with
      | none => some ({ net with vChans := net.vChans.set i fixed.2 }, true)
      | some m => (net.bufferChannel k i fixed.2 m).map fun net => (net, chan.bDetached)

theorem chanOf_eq_some {net : CIRCNetwork} {m : CMessage} {i : ℕ} {chan : CChan} (h : net.chanOf m = some (i, chan)) :
    net.vChans[i]? = some chan := by
  obtain ⟨j, -, hj⟩ := Option.bind_eq_some_iff.1 h
  obtain ⟨c, hc, hpair⟩ := Option.map_eq_some_iff.1 hj
  simp only [Prod.mk.injEq] at hpair
  rw [← hpair.1, ← hpair.2, hc]

end CIRCNetwork

end ZNC
