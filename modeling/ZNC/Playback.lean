/-
What becomes of the lines in the channel, query and notice buffers, from the moment they are stored.

A line leaves its buffer when a size limit displaces it, when its channel or query is deleted, when the buffer is cleared by
a command or a change of settings, and when the buffer was played and is cleared behind that. Playing shows the lines to
the clients that are attached; `CQuery::SendBuffer` leaves out the client's own lines unless it has echo-message or
self-message. The clearing does not ask whether anybody was shown anything.

Model: each stored line has a number, and `journal` has what happened to the lines: who they were put to, and which of the
other reasons removed them. A line that is only cleared behind a playback is not in the journal for it. A place of
`m_vChans` or `m_vQueries` stands for the pointer. Lines that are put to a client count as offered, also those that
`PutClient` drops for want of a capability.

Results:
- `step_passes`: what each event keeps, if it meets `EventOk`;
- `not_lost`: in every run whose events meet `EventOk` each stored line is still held or in the journal;
- `attached_unseen`: autoattach attaches a channel while nobody is there, and its buffer is gone.
-/
import ZNC.Buffer
import ZNC.Lib.Journal

namespace ZNC.Playback

open CString Journal List Option

/-! ## Model -/

/-- what happened to a line -/
inductive Fate where
  | offered (uLine : ℕ) (pClient : ℕ)
  | displaced (uLine : ℕ)
  | deleted (uLine : ℕ)
  | cleared (uLine : ℕ)
deriving DecidableEq

def Fate.uLine : Fate → ℕ
  | .offered uLine _ => uLine
  | .displaced uLine => uLine
  | .deleted uLine => uLine
  | .cleared uLine => uLine

/-- `CBuffer`, each line with its number -/
structure CBuffer where
  lines : List (ℕ × CBufLine)
  uLineCount : ℕ

namespace CBuffer

/-- the numbers of the lines -/
def held (b : CBuffer) : List ℕ := b.lines.map (·.1)

/-- `AddLine`: the buffer, and the lines that made room -/
def addLine (b : CBuffer) (uLine : ℕ) (line : CBufLine) : Option (CBuffer × List ℕ) :=
  if b.uLineCount = 0 then none
  else
    let uErase := b.lines.length + 1 - b.uLineCount
    some ({ b with lines := b.lines.drop uErase ++ [(uLine, line)] }, (b.lines.take uErase).map (·.1))

/-- `SetLineCount(u)`: the buffer, and the lines it shrinks by -/
def setLineCount (b : CBuffer) (u : ℕ) : CBuffer × List ℕ :=
  let uErase := b.lines.length - u
  (⟨b.lines.drop uErase, u⟩, (b.lines.take uErase).map (·.1))

def clear (b : CBuffer) : CBuffer := { b with lines := [] }

end CBuffer

/-- `CClient`: its address, nick and capabilities -/
structure CClient extends ZNC.CClient where
  pThis : ℕ
  bEchoMessage : Bool
  bSelfMessage : Bool
  bAway : Bool

structure CChan where
  bIsOn : Bool
  bDetached : Bool
  bAutoClearChanBuffer : Bool
  buffer : CBuffer

structure CQuery where
  sName : CString
  buffer : CBuffer

def CChan.held (chan : CChan) : List ℕ := chan.buffer.held

def CQuery.held (query : CQuery) : List ℕ := query.buffer.held

/-- `CIRCNetwork` with the settings of its user; `uNext` is the number of the next line -/
structure CIRCNetwork where
  bMultiClients : Bool
  bAutoClearChanBuffer : Bool
  bAutoClearQueryBuffer : Bool
  uMaxQueryBuffers : ℕ
  uChanBufferSize : ℕ
  uQueryBufferSize : ℕ
  vClients : List CClient
  vChans : List CChan
  vQueries : List CQuery
  noticeBuffer : CBuffer
  uNext : ℕ
  journal : List Fate

namespace CIRCNetwork

def isUserOnline (net : CIRCNetwork) : Bool := net.vClients.any fun client => !client.bAway

/-- the clients that `PutUser(..., pClient)` puts to -/
def hearers (net : CIRCNetwork) : Option ℕ → List CClient
  | none => net.vClients
  | some pClient => (net.vClients.find? fun client => client.pThis = pClient).toList

def record (net : CIRCNetwork) (fates : List Fate) : CIRCNetwork := { net with journal := fates ++ net.journal }

/-! ### Storing -/

/-- a line goes into a buffer `b`, which `put` puts back -/
def store (net : CIRCNetwork) (b : CBuffer) (put : CBuffer → CIRCNetwork) (line : CBufLine) : CIRCNetwork :=
  match b.addLine net.uNext line with
  | none => net
  | some (b, vErased) => { (put b).record (vErased.map .displaced) with uNext := net.uNext + 1 }

def setChanBuffer (net : CIRCNetwork) (pChan : ℕ) (b : CBuffer) : CIRCNetwork :=
  { net with vChans := net.vChans.modify pChan fun chan => { chan with buffer := b } }

def setQueryBuffer (net : CIRCNetwork) (pQuery : ℕ) (b : CBuffer) : CIRCNetwork :=
  { net with vQueries := net.vQueries.modify pQuery fun query => { query with buffer := b } }

/-- `CChan::AddBuffer` -/
def addChanBuffer (net : CIRCNetwork) (pChan : ℕ) (line : CBufLine) : CIRCNetwork :=
  match net.vChans[pChan]? with
  | none => net
  | some chan => net.store chan.buffer (net.setChanBuffer pChan) line

/-- `AddQuery(sName)`, and its place -/
def addQuery (net : CIRCNetwork) (sName : CString) : CIRCNetwork × Option ℕ :=
  if sName = [] then (net, none)
  else
    match net.vQueries.findIdx? fun query => sName.equals query.sName with
    | some pQuery => (net, some pQuery)
    | none =>
      let vQueries := net.vQueries ++ [⟨sName, ⟨[], net.uQueryBufferSize⟩⟩]
      let uErase := if 0 < net.uMaxQueryBuffers then vQueries.length - net.uMaxQueryBuffers else 0
      ({ net with vQueries := vQueries.drop uErase }.record (((vQueries.take uErase).flatMap CQuery.held).map .displaced),
        some (vQueries.length - uErase - 1))

/-- `CQuery::AddBuffer` -/
def addQueryBuffer (net : CIRCNetwork) (sName : CString) (line : CBufLine) : CIRCNetwork :=
  let r := net.addQuery sName
  match r.2.bind fun pQuery => r.1.vQueries[pQuery]?.map fun query => (pQuery, query) with
  | none => r.1
  | some (pQuery, query) => r.1.store query.buffer (r.1.setQueryBuffer pQuery) line

def addNoticeBuffer (net : CIRCNetwork) (line : CBufLine) : CIRCNetwork :=
  net.store net.noticeBuffer (fun b => { net with noticeBuffer := b }) line

/-! ### Playing -/

def putLines (net : CIRCNetwork) (client : CClient) (lines : List (ℕ × CBufLine)) : CIRCNetwork :=
  net.record (lines.map fun l => .offered l.1 client.pThis)

/-- `CChan::SendBuffer(pClient, Buffer)` -/
def playChan (net : CIRCNetwork) (lines : List (ℕ × CBufLine)) (pClient : Option ℕ) : CIRCNetwork :=
  (net.hearers pClient).foldl (fun net client => net.putLines client lines) net

/-- `CChan::SendBuffer(pClient)` -/
def sendChanBuffer (net : CIRCNetwork) (pChan : ℕ) (pClient : Option ℕ) : CIRCNetwork :=
  match net.vChans[pChan]? with
  | none => net
  | some chan =>
    let net := net.playChan chan.buffer.lines pClient
    if chan.bAutoClearChanBuffer then net.setChanBuffer pChan chan.buffer.clear else net

/-- a line of the client itself, which `CQuery::SendBuffer` leaves out -/
def skips (client : CClient) (line : CBufLine) : Bool :=
  !client.bEchoMessage && !client.bSelfMessage &&
    (line.toMessage client.toCClient (OrdMap.empty.insert (lit "target") client.sNick)).any fun m =>
      m.nick.nickEquals client.sNick

/-- `CQuery::SendBuffer(pClient)` -/
def sendQueryBuffer (net : CIRCNetwork) (query : CQuery) (pClient : ℕ) : CIRCNetwork :=
  (net.hearers (some pClient)).foldl
    (fun net client => net.putLines client (query.buffer.lines.filter fun l => !skips client l.2)) net

def attachUser (net : CIRCNetwork) (pChan : ℕ) (pClient : Option ℕ) : CIRCNetwork :=
  { net with vChans := net.vChans.modify pChan fun chan =>
               { chan with bDetached := false } }.sendChanBuffer pChan pClient

/-! ### Clients -/

/-- the loop of `ClientConnected` over the channels -/
def greetChan (pClient : ℕ) (net : CIRCNetwork) (pChan : ℕ) : CIRCNetwork :=
  match net.vChans[pChan]? with
  | none => net
  | some chan => if chan.bIsOn && !chan.bDetached then net.attachUser pChan (some pClient) else net

/-- what `ClientConnected` does with the queries -/
def greetQueries (net : CIRCNetwork) (pClient : ℕ) : CIRCNetwork :=
  let net := net.vQueries.foldl (fun net query => net.sendQueryBuffer query pClient) net
  if net.bAutoClearQueryBuffer then { net with vQueries := [] } else net

/-- what `ClientConnected` does with the notices -/
def greetNotices (net : CIRCNetwork) (client : CClient) : CIRCNetwork :=
  { net.putLines client net.noticeBuffer.lines with noticeBuffer := net.noticeBuffer.clear }

def clientConnected (net : CIRCNetwork) (client : CClient) : CIRCNetwork :=
  -- `BounceAllClients`
  let net := { net with vClients := (if net.bMultiClients then net.vClients else []) ++ [client] }
  let net := (List.range net.vChans.length).foldl (greetChan client.pThis) net
  (net.greetQueries client.pThis).greetNotices client

def clientDisconnected (net : CIRCNetwork) (pClient : ℕ) : CIRCNetwork :=
  { net with vClients := net.vClients.eraseP fun client => client.pThis = pClient }

def setAway (net : CIRCNetwork) (pClient : ℕ) (bAway : Bool) : CIRCNetwork :=
  { net with vClients := net.vClients.map fun client =>
               if client.pThis = pClient then { client with bAway := bAway } else client }

/-! ### Handlers -/

/-- `CChanAttach::TryAttach`; `bMatch` is whether the module's entries match the line -/
def tryAttach (net : CIRCNetwork) (pChan : ℕ) (bMatch : Bool) : CIRCNetwork :=
  match net.vChans[pChan]? with
  | none => net
  | some chan => if chan.bDetached && bMatch then net.attachUser pChan none else net

/-- a message of the server to a channel: `OnTextMessage` and its like of `CIRCSock` -/
def onChanMessage (net : CIRCNetwork) (pChan : ℕ) (line : CBufLine) (bMatch : Bool) : CIRCNetwork :=
  let net := net.tryAttach pChan bMatch
  match net.vChans[pChan]? with
  | none => net
  | some chan =>
    if !chan.bAutoClearChanBuffer || !net.isUserOnline || chan.bDetached then net.addChanBuffer pChan line else net

/-- a message of the server to the own nick -/
def onPrivMessage (net : CIRCNetwork) (sNick : CString) (line : CBufLine) : CIRCNetwork :=
  if !net.isUserOnline || !net.bAutoClearQueryBuffer then net.addQueryBuffer sNick line else net

/-- a notice of the server to the own nick -/
def onPrivNotice (net : CIRCNetwork) (line : CBufLine) : CIRCNetwork :=
  if !net.isUserOnline then net.addNoticeBuffer line else net

/-- `CClient::AddBuffer` for a message to a channel -/
def ownChanMessage (net : CIRCNetwork) (pChan : ℕ) (line : CBufLine) : CIRCNetwork :=
  match net.vChans[pChan]? with
  | none => net
  | some chan => if !chan.bAutoClearChanBuffer || !net.isUserOnline then net.addChanBuffer pChan line else net

/-- `CClient::AddBuffer` for a message to anybody else, notices apart -/
def ownMessage (net : CIRCNetwork) (sTarget : CString) (line : CBufLine) : CIRCNetwork :=
  if !net.bAutoClearQueryBuffer || !net.isUserOnline then net.addQueryBuffer sTarget line else net

/-- the loop of `CClient::AttachChans` -/
def attachChan (net : CIRCNetwork) (pChan : ℕ) : CIRCNetwork :=
  match net.vChans[pChan]? with
  | none => net
  | some chan => if chan.bDetached then net.attachUser pChan none else net

/-- the loop of `CClient::OnJoinMessage`, for a channel that is there -/
def joinChan (net : CIRCNetwork) (pClient pChan : ℕ) : CIRCNetwork :=
  match net.vChans[pChan]? with
  | none => net
  | some chan => if chan.bDetached then net.attachUser pChan (some pClient) else net

def detachUser (net : CIRCNetwork) (pChan : ℕ) : CIRCNetwork :=
  { net with vChans := net.vChans.modify pChan fun chan => { chan with bDetached := true } }

def addChan (net : CIRCNetwork) : CIRCNetwork :=
  { net with vChans := net.vChans ++ [⟨false, false, net.bAutoClearChanBuffer, ⟨[], net.uChanBufferSize⟩⟩] }

def setIsOn (net : CIRCNetwork) (pChan : ℕ) (bOn : Bool) : CIRCNetwork :=
  { net with vChans := net.vChans.modify pChan fun chan => { chan with bIsOn := bOn } }

def delChan (net : CIRCNetwork) (pChan : ℕ) : CIRCNetwork :=
  { net with vChans := net.vChans.eraseIdx pChan }.record
    (((net.vChans[pChan]?).toList.flatMap CChan.held).map .deleted)

def delQuery (net : CIRCNetwork) (pQuery : ℕ) : CIRCNetwork :=
  { net with vQueries := net.vQueries.eraseIdx pQuery }.record
    (((net.vQueries[pQuery]?).toList.flatMap CQuery.held).map .deleted)

def playQuery (net : CIRCNetwork) (pClient pQuery : ℕ) : CIRCNetwork :=
  match net.vQueries[pQuery]? with
  | none => net
  | some query => net.sendQueryBuffer query pClient

/-! ### Clearing and settings -/

/-- `CChan::ClearBuffer()` of a command or a setting -/
def clearChanBuffer (net : CIRCNetwork) (pChan : ℕ) : CIRCNetwork :=
  match net.vChans[pChan]? with
  | none => net
  | some chan => (net.setChanBuffer pChan chan.buffer.clear).record (chan.held.map .cleared)

def clearQueryBuffer (net : CIRCNetwork) : CIRCNetwork :=
  { net with vQueries := [] }.record ((net.vQueries.flatMap CQuery.held).map .cleared)

/-- `CChan::SetBufferCount(u)` -/
def setChanBufferCount (net : CIRCNetwork) (pChan u : ℕ) : CIRCNetwork :=
  match net.vChans[pChan]? with
  | none => net
  | some chan =>
    (net.setChanBuffer pChan (chan.buffer.setLineCount u).1).record ((chan.buffer.setLineCount u).2.map .displaced)

/-- `CQuery::SetBufferCount(u)` -/
def setQueryBufferCount (net : CIRCNetwork) (pQuery u : ℕ) : CIRCNetwork :=
  match net.vQueries[pQuery]? with
  | none => net
  | some query =>
    (net.setQueryBuffer pQuery (query.buffer.setLineCount u).1).record ((query.buffer.setLineCount u).2.map .displaced)

def setAutoClearChanBuffer (net : CIRCNetwork) (pChan : ℕ) (b : Bool) : CIRCNetwork :=
  let net := { net with vChans := net.vChans.modify pChan fun chan => { chan with bAutoClearChanBuffer := b } }
  match net.vChans[pChan]? with
  | none => net
  | some chan => if b && !chan.bDetached && net.isUserOnline then net.clearChanBuffer pChan else net

end CIRCNetwork

/-! ### Runs -/

/-- what happens to a network and its buffers; a client that connects has taken over the nick of the network when the queries
are played to it -/
inductive Event where
  | connect (client : CClient)
  | disconnect (pClient : ℕ)
  | away (pClient : ℕ) (bAway : Bool)
  | chanMessage (pChan : ℕ) (line : CBufLine) (bMatch : Bool)
  | privMessage (sNick : CString) (line : CBufLine)
  | privNotice (line : CBufLine)
  | ownChanMessage (pChan : ℕ) (line : CBufLine)
  | ownMessage (sTarget : CString) (line : CBufLine)
  | attach (sChans : List ℕ)
  | clientJoin (pClient pChan : ℕ)
  | detach (sChans : List ℕ)
  | addChan
  | setIsOn (pChan : ℕ) (bOn : Bool)
  | delChan (pChan : ℕ)
  | delQuery (pQuery : ℕ)
  | playChan (pClient pChan : ℕ)
  | playQuery (pClient pQuery : ℕ)
  | clearChan (pChan : ℕ)
  | clearQueries
  | setChanBufferCount (pChan u : ℕ)
  | setQueryBufferCount (pQuery u : ℕ)
  | setAutoClearChanBuffer (pChan : ℕ) (b : Bool)
  | setAutoClearQueryBuffer (b : Bool)

namespace CIRCNetwork

def step (net : CIRCNetwork) : Event → CIRCNetwork
  -- a new client is not at the address of another one
  | .connect client => if net.vClients.any fun c => c.pThis = client.pThis then net else net.clientConnected client
  | .disconnect pClient => net.clientDisconnected pClient
  | .away pClient bAway => net.setAway pClient bAway
  | .chanMessage pChan line bMatch => net.onChanMessage pChan line bMatch
  | .privMessage sNick line => net.onPrivMessage sNick line
  | .privNotice line => net.onPrivNotice line
  | .ownChanMessage pChan line => net.ownChanMessage pChan line
  | .ownMessage sTarget line => net.ownMessage sTarget line
  | .attach sChans => sChans.foldl attachChan net
  | .clientJoin pClient pChan => net.joinChan pClient pChan
  | .detach sChans => sChans.foldl detachUser net
  | .addChan => net.addChan
  | .setIsOn pChan bOn => net.setIsOn pChan bOn
  | .delChan pChan => net.delChan pChan
  | .delQuery pQuery => net.delQuery pQuery
  | .playChan pClient pChan => net.sendChanBuffer pChan (some pClient)
  | .playQuery pClient pQuery => net.playQuery pClient pQuery
  | .clearChan pChan => net.clearChanBuffer pChan
  | .clearQueries => net.clearQueryBuffer
  | .setChanBufferCount pChan u => net.setChanBufferCount pChan u
  | .setQueryBufferCount pQuery u => net.setQueryBufferCount pQuery u
  | .setAutoClearChanBuffer pChan b => net.setAutoClearChanBuffer pChan b
  | .setAutoClearQueryBuffer b => { net with bAutoClearQueryBuffer := b }

/-! ## Statement -/

/-- the lines in all buffers -/
def held (net : CIRCNetwork) : List ℕ :=
  net.vChans.flatMap CChan.held ++ net.vQueries.flatMap CQuery.held ++ net.noticeBuffer.held

/-- the line is in a buffer, or the journal says who it was put to or what else removed it -/
def Known (net : CIRCNetwork) (uLine : ℕ) : Prop := uLine ∈ net.held ∨ ∃ fate ∈ net.journal, fate.uLine = uLine

/-- before the first line is stored -/
structure Initial (net : CIRCNetwork) : Prop where
  next : net.uNext = 0
  held : net.held = []
  journal : net.journal = []

/-- no stored line is lost -/
def NotLost (net : CIRCNetwork) : Prop := ∀ uLine < net.uNext, net.Known uLine

/-- if the buffer is played and then cleared, somebody is there to hear it -/
def Heard (net : CIRCNetwork) (pChan : ℕ) (pClient : Option ℕ) : Prop :=
  ∀ chan ∈ net.vChans[pChan]?, chan.bAutoClearChanBuffer → chan.buffer.lines ≠ [] → net.hearers pClient ≠ []

def Detached (net : CIRCNetwork) (pChan : ℕ) : Prop := ∀ chan ∈ net.vChans[pChan]?, chan.bDetached

/-- the events that lose no line: a buffer that is played has a listener, and a new client that does not get its own lines
finds none of its own in the queries -/
def EventOk (net : CIRCNetwork) : Event → Prop
  | .connect client =>
    net.bAutoClearQueryBuffer → ∀ query ∈ net.vQueries, ∀ l ∈ query.buffer.lines, skips client l.2 = false
  | .chanMessage pChan _ bMatch => bMatch → net.Detached pChan → net.Heard pChan none
  | .attach sChans => ∀ pChan ∈ sChans, net.Detached pChan → net.Heard pChan none
  | .clientJoin pClient pChan => net.Detached pChan → net.Heard pChan (some pClient)
  | .playChan pClient pChan => net.Heard pChan (some pClient)
  | _ => True

/-! ## What an operation does to the lines -/

variable {net : CIRCNetwork}

variable {uLine : ℕ}

theorem mem_held :
    uLine ∈ net.held ↔ (∃ chan ∈ net.vChans, uLine ∈ chan.held) ∨ (∃ query ∈ net.vQueries, uLine ∈ query.held) ∨
      uLine ∈ net.noticeBuffer.held := by
  simp [held]

theorem known_record {fates : List Fate} :
    (net.record fates).Known uLine ↔ net.Known uLine ∨ ∃ fate ∈ fates, fate.uLine = uLine := by
  simp only [Known, record, held, mem_append, or_and_right, exists_or]
  exact (or_congr_right or_comm).trans or_assoc.symm

/-- no line gets lost on the way from `net` to `net'` -/
structure Passes (net net' : CIRCNetwork) : Prop where
  next : net.uNext ≤ net'.uNext
  known : ∀ uLine, net.Known uLine → net'.Known uLine
  new : ∀ uLine, net.uNext ≤ uLine → uLine < net'.uNext → net'.Known uLine

theorem Passes.refl (net : CIRCNetwork) : Passes net net :=
  ⟨le_rfl, fun _ h => h, fun _ hle hlt => absurd hlt (Nat.not_lt.2 hle)⟩

theorem Passes.trans {net1 net2 net3 : CIRCNetwork} (h1 : Passes net1 net2) (h2 : Passes net2 net3) :
    Passes net1 net3 where
  next := h1.next.trans h2.next
  known := fun uLine h => h2.known uLine (h1.known uLine h)
  new := by
    intro uLine hle hlt
    rcases Nat.lt_or_ge uLine net2.uNext with h | h
    · exact h2.known uLine (h1.new uLine hle h)
    · exact h2.new uLine h hlt

instance Passes.instTrans : Trans Passes Passes Passes := ⟨Passes.trans⟩

theorem Passes.notLost {net' : CIRCNetwork} (h : Passes net net') (hnet : net.NotLost) : net'.NotLost := by
  intro uLine hlt
  rcases Nat.lt_or_ge uLine net.uNext with hold | hnew
  · exact h.known uLine (hnet uLine hold)
  · exact h.new uLine hnew hlt

theorem Passes.foldl {α : Type} {f : CIRCNetwork → α → CIRCNetwork} (P : CIRCNetwork → α → Prop)
    (hf : ∀ net a, P net a → Passes net (f net a)) (hP : ∀ net a b, P net b → P (f net a) b) (l : List α)
    (net : CIRCNetwork)
    (hl : ∀ a ∈ l, P net a) : Passes net (l.foldl f net) := by
  induction l generalizing net with
  | nil => exact Passes.refl net
  | cons a l ih =>
    exact (hf net a (hl a mem_cons_self)).trans
      (ih (f net a) fun b hb => hP net a b (hl b (mem_cons_of_mem a hb)))

theorem Passes.of_held {net' : CIRCNetwork} (hnext : net'.uNext = net.uNext) (hjournal : net.journal ⊆ net'.journal)
    (hheld : ∀ uLine ∈ net.held, net'.Known uLine) : Passes net net' where
  next := hnext.ge
  known := by
    rintro uLine (h | ⟨fate, hfate, rfl⟩)
    · exact hheld uLine h
    · exact .inr ⟨fate, hjournal hfate, rfl⟩
  new := fun uLine hle hlt => absurd hlt (by omega)

theorem record_passes (net : CIRCNetwork) (fates : List Fate) : Passes net (net.record fates) :=
  .of_held rfl (subset_append_right _ _) fun _ h => .inl h

/-! ### One channel or query -/

theorem flatMap_modify {α : Type} {f : α → α} {g : α → List ℕ} (hg : ∀ a, g (f a) = g a) (l : List α) (i : ℕ) :
    (l.modify i f).flatMap g = l.flatMap g := by
  induction l generalizing i with
  | nil => rw [modify_nil]
  | cons a l ih =>
    cases i with
    | zero => rw [modify_zero_cons, flatMap_cons, flatMap_cons, hg]
    | succ i => rw [modify_succ_cons, flatMap_cons, flatMap_cons, ih]

theorem mem_modify_of_mem {α : Type} {l : List α} {a : α} (ha : a ∈ l) (i : ℕ) (f : α → α) :
    a ∈ l.modify i f ∨ l[i]? = some a := by
  induction l generalizing i with
  | nil => cases ha
  | cons b l ih =>
    rcases mem_cons.1 ha with rfl | ha
    · cases i with
      | zero => exact .inr rfl
      | succ i => exact .inl mem_cons_self
    · cases i with
      | zero => exact .inl (mem_cons_of_mem _ ha)
      | succ i => exact (ih ha i).imp (mem_cons_of_mem _) id

theorem mem_modify_self {α : Type} {l : List α} {i : ℕ} {a : α} (ha : l[i]? = some a) (f : α → α) :
    f a ∈ l.modify i f := by
  refine mem_of_getElem? (i := i) ?_
  rw [getElem?_modify, ha]
  simp

theorem flags_passes (net : CIRCNetwork) (pChan : ℕ) {f : CChan → CChan} (hf : ∀ chan, (f chan).held = chan.held) :
    Passes net { net with vChans := net.vChans.modify pChan f } := by
  refine .of_held rfl (List.Subset.refl _) fun uLine h => .inl ?_
  rw [held, flatMap_modify hf]
  exact h

theorem held_setChanBuffer {pChan : ℕ} {chan : CChan} (hchan : net.vChans[pChan]? = some chan) (b : CBuffer)
    (h : uLine ∈ net.held) : uLine ∈ (net.setChanBuffer pChan b).held ∨ uLine ∈ chan.held := by
  rcases mem_held.1 h with ⟨c, hc, hu⟩ | hrest
  · rcases mem_modify_of_mem hc pChan fun chan => { chan with buffer := b } with hmem | hat
    · exact .inl (mem_held.2 (.inl ⟨c, hmem, hu⟩))
    · rw [hchan] at hat
      rw [some.inj hat]
      exact .inr hu
  · exact .inl (mem_held.2 (.inr hrest))

theorem mem_setChanBuffer {pChan : ℕ} {chan : CChan} (hchan : net.vChans[pChan]? = some chan) {b : CBuffer}
    (h : uLine ∈ b.held) : uLine ∈ (net.setChanBuffer pChan b).held :=
  mem_held.2 (.inl ⟨_, mem_modify_self hchan fun chan => { chan with buffer := b }, h⟩)

theorem held_setQueryBuffer {pQuery : ℕ} {query : CQuery} (hquery : net.vQueries[pQuery]? = some query) (b : CBuffer)
    {uLine : ℕ} (h : uLine ∈ net.held) : uLine ∈ (net.setQueryBuffer pQuery b).held ∨ uLine ∈ query.held := by
  rcases mem_held.1 h with hchan | ⟨q, hq, hu⟩ | hnotice
  · exact .inl (mem_held.2 (.inl hchan))
  · rcases mem_modify_of_mem hq pQuery fun query => { query with buffer := b } with hmem | hat
    · exact .inl (mem_held.2 (.inr (.inl ⟨q, hmem, hu⟩)))
    · rw [hquery] at hat
      rw [some.inj hat]
      exact .inr hu
  · exact .inl (mem_held.2 (.inr (.inr hnotice)))

theorem mem_setQueryBuffer {pQuery : ℕ} {query : CQuery} (hquery : net.vQueries[pQuery]? = some query) {b : CBuffer}
    {uLine : ℕ} (h : uLine ∈ b.held) : uLine ∈ (net.setQueryBuffer pQuery b).held :=
  mem_held.2 (.inr (.inl ⟨_, mem_modify_self hquery fun query => { query with buffer := b }, h⟩))

/-! ### Storing -/

theorem addLine_spec {b b' : CBuffer} {line : CBufLine} {vErased : List ℕ}
    (h : b.addLine uLine line = some (b', vErased)) :
    uLine ∈ b'.held ∧ ∀ u ∈ b.held, u ∈ b'.held ∨ u ∈ vErased := by
  unfold CBuffer.addLine at h
  split_ifs at h
  obtain ⟨rfl, rfl⟩ := Prod.mk.inj (some.inj h)
  refine ⟨by simp [CBuffer.held], fun u hu => ?_⟩
  rw [CBuffer.held, ← take_append_drop (b.lines.length + 1 - b.uLineCount) b.lines, map_append] at hu
  rcases mem_append.1 hu with hu | hu
  · exact .inr hu
  · refine .inl ?_
    rw [CBuffer.held, map_append]
    exact mem_append_left _ hu

/-- **A line is stored**: the others are there still or made room. -/
theorem store_passes (b : CBuffer) (put : CBuffer → CIRCNetwork) (line : CBufLine)
    (hjournal : ∀ b', (put b').journal = net.journal) (hheld : ∀ b', ∀ u ∈ net.held, u ∈ (put b').held ∨ u ∈ b.held)
    (hput : ∀ b', ∀ u ∈ b'.held, u ∈ (put b').held) :
    Passes net (net.store b put line) := by
  unfold store
  cases hadd : b.addLine net.uNext line with
  | none => exact Passes.refl net
  | some r =>
    obtain ⟨b', vErased⟩ := r
    obtain ⟨hself, hothers⟩ := addLine_spec hadd
    have hknown : ∀ u, (((put b').record (vErased.map .displaced)).Known u) →
        ({ (put b').record (vErased.map .displaced) with uNext := net.uNext + 1 } : CIRCNetwork).Known u := fun _ h => h
    refine ⟨Nat.le_succ _, fun u h => hknown u (known_record.2 ?_),
      fun u hle hlt => hknown u (known_record.2 (.inl ?_))⟩
    · rcases h with h | ⟨fate, hfate, rfl⟩
      · rcases hheld b' u h with h | h
        · exact .inl (.inl h)
        · rcases hothers u h with h | h
          · exact .inl (.inl (hput b' u h))
          · exact .inr ⟨_, mem_map_of_mem h, rfl⟩
      · exact .inl (.inr ⟨fate, by rw [hjournal]; exact hfate, rfl⟩)
    · have hu : u = net.uNext := by
        have hlt' : u < net.uNext + 1 := hlt
        omega
      rw [hu]
      exact .inl (hput b' _ hself)

theorem addChanBuffer_passes (net : CIRCNetwork) (pChan : ℕ) (line : CBufLine) :
    Passes net (net.addChanBuffer pChan line) := by
  unfold addChanBuffer
  cases hchan : net.vChans[pChan]? with
  | none => exact Passes.refl net
  | some chan =>
    exact store_passes chan.buffer (net.setChanBuffer pChan) line (fun _ => rfl)
      (fun b' u h => held_setChanBuffer hchan b' h) fun b' u h => mem_setChanBuffer hchan h

theorem addNoticeBuffer_passes (net : CIRCNetwork) (line : CBufLine) : Passes net (net.addNoticeBuffer line) := by
  refine store_passes net.noticeBuffer (fun b => { net with noticeBuffer := b }) line (fun _ => rfl) (fun b' u h => ?_)
    fun b' u h => mem_held.2 (.inr (.inr h))
  rcases mem_held.1 h with h | h | h
  · exact .inl (mem_held.2 (.inl h))
  · exact .inl (mem_held.2 (.inr (.inl h)))
  · exact .inr h

theorem addQuery_passes (net : CIRCNetwork) (sName : CString) : Passes net (net.addQuery sName).1 := by
  unfold addQuery
  by_cases hempty : sName = []
  · rw [if_pos hempty]
    exact Passes.refl net
  · rw [if_neg hempty]
    cases net.vQueries.findIdx? fun query => sName.equals query.sName with
    | some pQuery => exact Passes.refl net
    | none =>
      dsimp only
      set vQueries := net.vQueries ++ [⟨sName, ⟨[], net.uQueryBufferSize⟩⟩]
      set uErase := if 0 < net.uMaxQueryBuffers then vQueries.length - net.uMaxQueryBuffers else 0
      refine .of_held rfl (subset_append_right _ _) fun u h => known_record.2 ?_
      rcases mem_held.1 h with hchan | ⟨q, hq, hu⟩ | hnotice
      · exact .inl (.inl (mem_held.2 (.inl hchan)))
      · have hmem : q ∈ vQueries.take uErase ++ vQueries.drop uErase := by
          rw [take_append_drop]
          exact mem_append_left _ hq
        rcases mem_append.1 hmem with hq | hq
        · exact .inr ⟨_, mem_map_of_mem (mem_flatMap.2 ⟨q, hq, hu⟩), rfl⟩
        · exact .inl (.inl (mem_held.2 (.inr (.inl ⟨q, hq, hu⟩))))
      · exact .inl (.inl (mem_held.2 (.inr (.inr hnotice))))

theorem addQueryBuffer_passes (net : CIRCNetwork) (sName : CString) (line : CBufLine) :
    Passes net (net.addQueryBuffer sName line) := by
  refine (addQuery_passes net sName).trans ?_
  unfold addQueryBuffer
  dsimp only
  cases hat : (net.addQuery sName).2.bind fun pQuery =>
      (net.addQuery sName).1.vQueries[pQuery]?.map fun query => (pQuery, query) with
  | none => exact Passes.refl _
  | some r =>
    obtain ⟨pQuery, query⟩ := r
    obtain ⟨i, -, hi⟩ := bind_eq_some_iff.1 hat
    obtain ⟨q, hq, heq⟩ := map_eq_some_iff.1 hi
    obtain ⟨rfl, rfl⟩ := Prod.mk.inj heq
    exact store_passes q.buffer ((net.addQuery sName).1.setQueryBuffer i) line (fun _ => rfl)
      (fun b' u h => held_setQueryBuffer hq b' h) fun b' u h => mem_setQueryBuffer hq h

/-! ### Playing -/

theorem playLoop_spec (clients : List CClient) (lines : CClient → List (ℕ × CBufLine)) (net : CIRCNetwork) :
    ∃ fates, clients.foldl (fun net client => net.putLines client (lines client)) net = net.record fates ∧
      ∀ client ∈ clients, ∀ l ∈ lines client, Fate.offered l.1 client.pThis ∈ fates := by
  induction clients generalizing net with
  | nil => exact ⟨[], rfl, fun client hclient => nomatch hclient⟩
  | cons c clients ih =>
    obtain ⟨fates, hfold, hin⟩ := ih (net.putLines c (lines c))
    refine ⟨fates ++ (lines c).map fun l => .offered l.1 c.pThis, ?_, fun client hclient l hl => ?_⟩
    · rw [foldl_cons, hfold]
      simp [putLines, record]
    · rcases mem_cons.1 hclient with rfl | hclient
      · exact mem_append_right _ (mem_map_of_mem hl)
      · exact mem_append_left _ (hin client hclient l hl)

/-- **A channel buffer is played**, and cleared only if somebody was there. -/
theorem sendChanBuffer_passes {pChan : ℕ} {pClient : Option ℕ} (hheard : net.Heard pChan pClient) :
    Passes net (net.sendChanBuffer pChan pClient) := by
  unfold sendChanBuffer
  cases hchan : net.vChans[pChan]? with
  | none => exact Passes.refl net
  | some chan =>
    dsimp only
    obtain ⟨fates, hplay, hin⟩ := playLoop_spec (net.hearers pClient) (fun _ => chan.buffer.lines) net
    rw [playChan, hplay]
    split_ifs with hclear
    · refine .of_held rfl (subset_append_right _ _) fun u h => ?_
      have hrecord : (net.record fates).vChans[pChan]? = some chan := hchan
      rcases held_setChanBuffer hrecord chan.buffer.clear h with h | h
      · exact .inl h
      · obtain ⟨l, hl, rfl⟩ := mem_map.1 h
        obtain ⟨client, hclient⟩ := exists_mem_of_ne_nil _ (hheard chan hchan hclear (ne_nil_of_mem hl))
        exact .inr ⟨_, mem_append_left _ (hin client hclient l hl), rfl⟩
    · exact record_passes net fates

theorem attachUser_passes {pChan : ℕ} {pClient : Option ℕ} (hheard : net.Heard pChan pClient) :
    Passes net (net.attachUser pChan pClient) := by
  refine (flags_passes net pChan (f := fun chan => { chan with bDetached := false }) fun _ => rfl).trans ?_
  refine sendChanBuffer_passes fun chan hchan hclear hne => ?_
  have hat : (net.vChans.modify pChan fun chan => { chan with bDetached := false })[pChan]? = some chan := hchan
  rw [getElem?_modify] at hat
  obtain ⟨c, hc, hceq⟩ := map_eq_some_iff.1 hat
  rw [if_pos rfl] at hceq
  rw [← hceq] at hclear hne
  exact hheard c hc hclear hne

theorem attachUser_frame (net : CIRCNetwork) (pChan : ℕ) (pClient : Option ℕ) :
    (net.attachUser pChan pClient).vClients = net.vClients ∧
      (net.attachUser pChan pClient).bAutoClearQueryBuffer = net.bAutoClearQueryBuffer ∧
      (net.attachUser pChan pClient).vQueries = net.vQueries ∧
      ∃ f : CChan → CChan, (∀ chan, (f chan).bDetached = false) ∧
        (net.attachUser pChan pClient).vChans = net.vChans.modify pChan f := by
  unfold attachUser sendChanBuffer
  cases hchan : (net.vChans.modify pChan fun chan => { chan with bDetached := false })[pChan]? with
  | none => exact ⟨rfl, rfl, rfl, fun chan => { chan with bDetached := false }, fun _ => rfl, rfl⟩
  | some chan =>
    dsimp only
    obtain ⟨fates, hplay, -⟩ := playLoop_spec
      (({ net with vChans := net.vChans.modify pChan fun chan =>
                     { chan with bDetached := false } } : CIRCNetwork).hearers
        pClient) (fun _ => chan.buffer.lines) _
    rw [playChan, hplay]
    split_ifs
    · refine ⟨rfl, rfl, rfl, fun c => { c with bDetached := false, buffer := chan.buffer.clear }, fun _ => rfl, ?_⟩
      exact modify_modify_eq _ _ _ _
    · exact ⟨rfl, rfl, rfl, fun chan => { chan with bDetached := false }, fun _ => rfl, rfl⟩

/-! ### A new client -/

theorem greetChan_frame (net : CIRCNetwork) (pClient pChan : ℕ) :
    (greetChan pClient net pChan).vClients = net.vClients ∧
      (greetChan pClient net pChan).bAutoClearQueryBuffer = net.bAutoClearQueryBuffer ∧
      (greetChan pClient net pChan).vQueries = net.vQueries := by
  unfold greetChan
  cases net.vChans[pChan]? with
  | none => exact ⟨rfl, rfl, rfl⟩
  | some chan =>
    dsimp only
    split_ifs
    · obtain ⟨hclients, hclear, hqueries, -⟩ := attachUser_frame net pChan (some pClient)
      exact ⟨hclients, hclear, hqueries⟩
    · exact ⟨rfl, rfl, rfl⟩

theorem greetChans_frame (net : CIRCNetwork) (pClient : ℕ) (pChans : List ℕ) :
    (pChans.foldl (greetChan pClient) net).vClients = net.vClients ∧
      (pChans.foldl (greetChan pClient) net).bAutoClearQueryBuffer = net.bAutoClearQueryBuffer ∧
      (pChans.foldl (greetChan pClient) net).vQueries = net.vQueries := by
  induction pChans generalizing net with
  | nil => exact ⟨rfl, rfl, rfl⟩
  | cons pChan pChans ih =>
    obtain ⟨h1, h2, h3⟩ := greetChan_frame net pClient pChan
    obtain ⟨i1, i2, i3⟩ := ih (greetChan pClient net pChan)
    exact ⟨i1.trans h1, i2.trans h2, i3.trans h3⟩

theorem greetChans_passes (net : CIRCNetwork) (pClient : ℕ) (hheard : net.hearers (some pClient) ≠ [])
    (pChans : List ℕ) :
    Passes net (pChans.foldl (greetChan pClient) net) := by
  refine Passes.foldl (fun net _ => net.hearers (some pClient) ≠ []) (fun net pChan h => ?_)
    (fun net pChan _ h => ?_) pChans net
    fun _ _ => hheard
  · unfold greetChan
    cases net.vChans[pChan]? with
    | none => exact Passes.refl net
    | some chan =>
      dsimp only
      split_ifs
      · exact attachUser_passes fun _ _ _ _ => h
      · exact Passes.refl net
  · rw [hearers, (greetChan_frame net pClient pChan).1]
    exact h

theorem sendQueries_spec (queries : List CQuery) (pClient : ℕ) (net : CIRCNetwork) :
    ∃ fates, queries.foldl (fun net query => net.sendQueryBuffer query pClient) net = net.record fates ∧
      ∀ client ∈ net.hearers (some pClient), ∀ query ∈ queries, ∀ l ∈ query.buffer.lines, skips client l.2 = false →
        Fate.offered l.1 client.pThis ∈ fates := by
  induction queries generalizing net with
  | nil => exact ⟨[], rfl, fun _ _ query hquery => nomatch hquery⟩
  | cons q queries ih =>
    obtain ⟨fates1, hplay, hin1⟩ := playLoop_spec (net.hearers (some pClient))
      (fun client => q.buffer.lines.filter fun l => !skips client l.2) net
    obtain ⟨fates2, hfold, hin2⟩ := ih (net.record fates1)
    refine ⟨fates2 ++ fates1, ?_, fun client hclient query hquery l hl hskip => ?_⟩
    · rw [foldl_cons, sendQueryBuffer, hplay, hfold]
      simp [record]
    · rcases mem_cons.1 hquery with rfl | hquery
      · refine mem_append_right _ (hin1 client hclient l (mem_filter.2 ⟨hl, ?_⟩))
        rw [hskip]
        rfl
      · exact mem_append_left _ (hin2 client hclient query hquery l hl hskip)

/-- **The queries are played**, and deleted only if no line was left out. -/
theorem greetQueries_passes (net : CIRCNetwork) {client : CClient} (hhear : client ∈ net.hearers (some client.pThis))
    (hskip : net.bAutoClearQueryBuffer → ∀ query ∈ net.vQueries, ∀ l ∈ query.buffer.lines, skips client l.2 = false) :
    Passes net (net.greetQueries client.pThis) := by
  unfold greetQueries
  obtain ⟨fates, hfold, hin⟩ := sendQueries_spec net.vQueries client.pThis net
  rw [hfold]
  dsimp only
  split_ifs with hclear
  · refine .of_held rfl (subset_append_right _ _) fun u h => ?_
    rcases mem_held.1 h with hchan | ⟨q, hq, hu⟩ | hnotice
    · exact .inl (mem_held.2 (.inl hchan))
    · obtain ⟨l, hl, rfl⟩ := mem_map.1 hu
      exact .inr ⟨_, mem_append_left _ (hin client hhear q hq l hl (hskip hclear q hq l hl)), rfl⟩
    · exact .inl (mem_held.2 (.inr (.inr hnotice)))
  · exact record_passes net fates

/-- **The notices are played** to the client and cleared. -/
theorem greetNotices_passes (net : CIRCNetwork) (client : CClient) : Passes net (net.greetNotices client) := by
  refine .of_held rfl (subset_append_right _ _) fun u h => ?_
  rcases mem_held.1 h with hchan | hquery | hnotice
  · exact .inl (mem_held.2 (.inl hchan))
  · exact .inl (mem_held.2 (.inr (.inl hquery)))
  · obtain ⟨l, hl, rfl⟩ := mem_map.1 hnotice
    exact .inr ⟨_, mem_append_left _ (mem_map_of_mem hl), rfl⟩

theorem clientConnected_passes (net : CIRCNetwork) (client : CClient)
    (hfree : ∀ c ∈ net.vClients, c.pThis ≠ client.pThis)
    (hskip : net.bAutoClearQueryBuffer → ∀ query ∈ net.vQueries, ∀ l ∈ query.buffer.lines, skips client l.2 = false) :
    Passes net (net.clientConnected client) := by
  set vClients := (if net.bMultiClients then net.vClients else []) ++ [client] with hvClients
  have hfind : vClients.find? (fun c => c.pThis = client.pThis) = some client := by
    have hstay : (if net.bMultiClients then net.vClients else []).find? (fun c => c.pThis = client.pThis) = none := by
      split_ifs
      · simpa using hfree
      · rfl
    rw [hvClients, find?_append, hstay]
    simp
  set net1 : CIRCNetwork := { net with vClients := vClients }
  have hhear1 : net1.hearers (some client.pThis) = [client] := by
    rw [hearers, hfind]
    rfl
  have hgreet : Passes net1 ((List.range net.vChans.length).foldl (greetChan client.pThis) net1) :=
    greetChans_passes net1 client.pThis (by rw [hhear1]; exact cons_ne_nil _ _) _
  obtain ⟨hclients, hclear, hqueries⟩ := greetChans_frame net1 client.pThis (List.range net.vChans.length)
  set net2 := (List.range net.vChans.length).foldl (greetChan client.pThis) net1
  have hhear2 : client ∈ net2.hearers (some client.pThis) := by
    rw [hearers, hclients, hfind]
    exact mem_cons_self
  have hq : Passes net2 (net2.greetQueries client.pThis) := by
    refine greetQueries_passes net2 hhear2 ?_
    rw [hclear, hqueries]
    exact hskip
  calc
    Passes net net1 := .of_held rfl (List.Subset.refl _) fun _ h => .inl h
    Passes _ net2 := hgreet
    Passes _ (net2.greetQueries client.pThis) := hq
    Passes _ (net.clientConnected client) := greetNotices_passes _ client

/-! ### Handlers -/

theorem detached_of_chan {pChan : ℕ} {chan : CChan} (hchan : net.vChans[pChan]? = some chan)
    (hdet : chan.bDetached = true) :
    net.Detached pChan := by
  intro c hc
  rw [hchan] at hc
  rw [← some.inj hc]
  exact hdet

theorem tryAttach_passes (net : CIRCNetwork) (pChan : ℕ) (bMatch : Bool)
    (hheard : bMatch → net.Detached pChan → net.Heard pChan none) : Passes net (net.tryAttach pChan bMatch) := by
  unfold tryAttach
  cases hchan : net.vChans[pChan]? with
  | none => exact Passes.refl net
  | some chan =>
    dsimp only
    split_ifs with hattach
    · obtain ⟨hdet, hmatch⟩ := Bool.and_eq_true_iff.1 hattach
      exact attachUser_passes (hheard hmatch (detached_of_chan hchan hdet))
    · exact Passes.refl net

theorem onChanMessage_passes (net : CIRCNetwork) (pChan : ℕ) (line : CBufLine) (bMatch : Bool)
    (hheard : bMatch → net.Detached pChan → net.Heard pChan none) : Passes net
      (net.onChanMessage pChan line bMatch) := by
  refine (tryAttach_passes net pChan bMatch hheard).trans ?_
  unfold onChanMessage
  dsimp only
  cases (net.tryAttach pChan bMatch).vChans[pChan]? with
  | none => exact Passes.refl _
  | some chan =>
    dsimp only
    split_ifs
    · exact addChanBuffer_passes _ pChan line
    · exact Passes.refl _

theorem ownChanMessage_passes (net : CIRCNetwork) (pChan : ℕ) (line : CBufLine) :
    Passes net (net.ownChanMessage pChan line) := by
  unfold ownChanMessage
  cases net.vChans[pChan]? with
  | none => exact Passes.refl net
  | some chan =>
    dsimp only
    split_ifs
    · exact addChanBuffer_passes net pChan line
    · exact Passes.refl net

theorem attachChan_passes (net : CIRCNetwork) (pChan : ℕ) (hheard : net.Detached pChan → net.Heard pChan none) :
    Passes net (net.attachChan pChan) := by
  unfold attachChan
  cases hchan : net.vChans[pChan]? with
  | none => exact Passes.refl net
  | some chan =>
    dsimp only
    split_ifs with hdet
    · exact attachUser_passes (hheard (detached_of_chan hchan hdet))
    · exact Passes.refl net

theorem attachChan_heard (net : CIRCNetwork) (pChan : ℕ) {p : ℕ} (hheard : net.Detached p → net.Heard p none) :
    (net.attachChan pChan).Detached p → (net.attachChan pChan).Heard p none := by
  intro hdet chan hchan hclear hne
  have hsame : (net.attachChan pChan).vClients = net.vClients ∧ net.vChans[p]? = some chan := by
    unfold attachChan at hdet hchan ⊢
    cases hat : net.vChans[pChan]? with
    | none =>
      rw [hat] at hchan
      exact ⟨rfl, hchan⟩
    | some c =>
      rw [hat] at hdet hchan
      dsimp only at hdet hchan ⊢
      split_ifs at hdet hchan ⊢
      · obtain ⟨hclients, -, -, f, hf, hmod⟩ := attachUser_frame net pChan none
        refine ⟨hclients, ?_⟩
        have hchan' := hchan
        rw [hmod, getElem?_modify] at hchan'
        obtain ⟨c', hc', hceq⟩ := map_eq_some_iff.1 hchan'
        split_ifs at hceq
        · have hdet' := hdet chan hchan
          rw [← hceq, hf] at hdet'
          cases hdet'
        · rw [← hceq]
          exact hc'
      · exact ⟨rfl, hchan⟩
  rw [hearers, hsame.1]
  exact hheard (detached_of_chan hsame.2 (hdet chan hchan)) chan hsame.2 hclear hne

theorem joinChan_passes (net : CIRCNetwork) (pClient pChan : ℕ)
    (hheard : net.Detached pChan → net.Heard pChan (some pClient)) :
    Passes net (net.joinChan pClient pChan) := by
  unfold joinChan
  cases hchan : net.vChans[pChan]? with
  | none => exact Passes.refl net
  | some chan =>
    dsimp only
    split_ifs with hdet
    · exact attachUser_passes (hheard (detached_of_chan hchan hdet))
    · exact Passes.refl net

theorem detachUser_passes (net : CIRCNetwork) (pChan : ℕ) : Passes net (net.detachUser pChan) :=
  flags_passes net pChan (f := fun chan => { chan with bDetached := true }) fun _ => rfl

theorem addChan_passes (net : CIRCNetwork) : Passes net net.addChan := by
  refine .of_held rfl (List.Subset.refl _) fun u h => .inl ?_
  rcases mem_held.1 h with ⟨chan, hchan, hu⟩ | hrest
  · exact mem_held.2 (.inl ⟨chan, mem_append_left _ hchan, hu⟩)
  · exact mem_held.2 (.inr hrest)

theorem mem_eraseIdx_or {α : Type} {l : List α} {a : α} (ha : a ∈ l) (i : ℕ) : a ∈ l.eraseIdx i ∨ l[i]? = some a := by
  obtain ⟨j, hj⟩ := mem_iff_getElem?.1 ha
  by_cases hij : j = i
  · exact .inr (hij ▸ hj)
  · refine .inl (mem_eraseIdx_iff_getElem?.2 ⟨j, hij, hj⟩)

theorem delChan_passes (net : CIRCNetwork) (pChan : ℕ) : Passes net (net.delChan pChan) := by
  refine .of_held rfl (subset_append_right _ _) fun u h => known_record.2 ?_
  rcases mem_held.1 h with ⟨chan, hchan, hu⟩ | hrest
  · rcases mem_eraseIdx_or hchan pChan with hmem | hat
    · exact .inl (.inl (mem_held.2 (.inl ⟨chan, hmem, hu⟩)))
    · refine .inr ⟨.deleted u, mem_map_of_mem ?_, rfl⟩
      rw [hat]
      simpa using hu
  · exact .inl (.inl (mem_held.2 (.inr hrest)))

theorem delQuery_passes (net : CIRCNetwork) (pQuery : ℕ) : Passes net (net.delQuery pQuery) := by
  refine .of_held rfl (subset_append_right _ _) fun u h => known_record.2 ?_
  rcases mem_held.1 h with hchan | ⟨query, hquery, hu⟩ | hnotice
  · exact .inl (.inl (mem_held.2 (.inl hchan)))
  · rcases mem_eraseIdx_or hquery pQuery with hmem | hat
    · exact .inl (.inl (mem_held.2 (.inr (.inl ⟨query, hmem, hu⟩))))
    · refine .inr ⟨.deleted u, mem_map_of_mem ?_, rfl⟩
      rw [hat]
      simpa using hu
  · exact .inl (.inl (mem_held.2 (.inr (.inr hnotice))))

/-! ### Clearing and settings -/

theorem clearChanBuffer_passes (net : CIRCNetwork) (pChan : ℕ) : Passes net (net.clearChanBuffer pChan) := by
  unfold clearChanBuffer
  cases hchan : net.vChans[pChan]? with
  | none => exact Passes.refl net
  | some chan =>
    refine .of_held rfl (subset_append_right _ _) fun u h => known_record.2 ?_
    rcases held_setChanBuffer hchan chan.buffer.clear h with h | h
    · exact .inl (.inl h)
    · exact .inr ⟨_, mem_map_of_mem h, rfl⟩

theorem clearQueryBuffer_passes (net : CIRCNetwork) : Passes net net.clearQueryBuffer := by
  refine .of_held rfl (subset_append_right _ _) fun u h => known_record.2 ?_
  rcases mem_held.1 h with hchan | ⟨query, hquery, hu⟩ | hnotice
  · exact .inl (.inl (mem_held.2 (.inl hchan)))
  · exact .inr ⟨_, mem_map_of_mem (mem_flatMap.2 ⟨query, hquery, hu⟩), rfl⟩
  · exact .inl (.inl (mem_held.2 (.inr (.inr hnotice))))

theorem setLineCount_spec (b : CBuffer) (u : ℕ) (h : uLine ∈ b.held) :
    uLine ∈ (b.setLineCount u).1.held ∨ uLine ∈ (b.setLineCount u).2 := by
  rw [CBuffer.held, ← take_append_drop (b.lines.length - u) b.lines, map_append] at h
  exact (mem_append.1 h).symm

theorem setChanBufferCount_passes (net : CIRCNetwork) (pChan u : ℕ) : Passes net (net.setChanBufferCount pChan u) := by
  unfold setChanBufferCount
  cases hchan : net.vChans[pChan]? with
  | none => exact Passes.refl net
  | some chan =>
    refine .of_held rfl (subset_append_right _ _) fun uLine h => known_record.2 ?_
    rcases held_setChanBuffer hchan (chan.buffer.setLineCount u).1 h with h | h
    · exact .inl (.inl h)
    · rcases setLineCount_spec chan.buffer u h with h | h
      · exact .inl (.inl (mem_setChanBuffer hchan h))
      · exact .inr ⟨_, mem_map_of_mem h, rfl⟩

theorem setQueryBufferCount_passes (net : CIRCNetwork) (pQuery u : ℕ) :
    Passes net (net.setQueryBufferCount pQuery u) := by
  unfold setQueryBufferCount
  cases hquery : net.vQueries[pQuery]? with
  | none => exact Passes.refl net
  | some query =>
    refine .of_held rfl (subset_append_right _ _) fun uLine h => known_record.2 ?_
    rcases held_setQueryBuffer hquery (query.buffer.setLineCount u).1 h with h | h
    · exact .inl (.inl h)
    · rcases setLineCount_spec query.buffer u h with h | h
      · exact .inl (.inl (mem_setQueryBuffer hquery h))
      · exact .inr ⟨_, mem_map_of_mem h, rfl⟩

theorem setAutoClearChanBuffer_passes (net : CIRCNetwork) (pChan : ℕ) (b : Bool) :
    Passes net (net.setAutoClearChanBuffer pChan b) := by
  refine (flags_passes net pChan (f := fun chan => { chan with bAutoClearChanBuffer := b }) fun _ => rfl).trans ?_
  unfold setAutoClearChanBuffer
  dsimp only
  cases (net.vChans.modify pChan fun chan => { chan with bAutoClearChanBuffer := b })[pChan]? with
  | none => exact Passes.refl _
  | some chan =>
    dsimp only
    split_ifs
    · exact clearChanBuffer_passes _ pChan
    · exact Passes.refl _

theorem playQuery_passes (net : CIRCNetwork) (pClient pQuery : ℕ) : Passes net (net.playQuery pClient pQuery) := by
  unfold playQuery
  cases net.vQueries[pQuery]? with
  | none => exact Passes.refl net
  | some query =>
    obtain ⟨fates, hplay, -⟩ := playLoop_spec (net.hearers (some pClient))
      (fun client => query.buffer.lines.filter fun l => !skips client l.2) net
    dsimp only
    rw [sendQueryBuffer, hplay]
    exact record_passes net fates

/-! ## Runs -/

theorem step_passes (net : CIRCNetwork) (e : Event) (hok : net.EventOk e) : Passes net (net.step e) := by
  cases e with
  | connect client =>
    simp only [step]
    split_ifs with hany
    · exact Passes.refl net
    · exact clientConnected_passes net client (by simpa using hany) hok
  | disconnect pClient => exact .of_held rfl (List.Subset.refl _) fun _ h => .inl h
  | away pClient bAway => exact .of_held rfl (List.Subset.refl _) fun _ h => .inl h
  | chanMessage pChan line bMatch => exact onChanMessage_passes net pChan line bMatch hok
  | privMessage sNick line =>
    simp only [step, onPrivMessage]
    split_ifs
    · exact addQueryBuffer_passes net sNick line
    · exact Passes.refl net
  | privNotice line =>
    simp only [step, onPrivNotice]
    split_ifs
    · exact addNoticeBuffer_passes net line
    · exact Passes.refl net
  | ownChanMessage pChan line => exact ownChanMessage_passes net pChan line
  | ownMessage sTarget line =>
    simp only [step, ownMessage]
    split_ifs
    · exact addQueryBuffer_passes net sTarget line
    · exact Passes.refl net
  | attach sChans =>
    exact Passes.foldl (fun net pChan => net.Detached pChan → net.Heard pChan none) attachChan_passes
      (fun net _ _ h => attachChan_heard net _ h) sChans net hok
  | clientJoin pClient pChan => exact joinChan_passes net pClient pChan hok
  | detach sChans =>
    exact Passes.foldl (fun _ _ => True) (fun net pChan _ => detachUser_passes net pChan)
      (fun _ _ _ _ => trivial) sChans net
      fun _ _ => trivial
  | addChan => exact addChan_passes net
  | setIsOn pChan bOn => exact flags_passes net pChan (f := fun chan => { chan with bIsOn := bOn }) fun _ => rfl
  | delChan pChan => exact delChan_passes net pChan
  | delQuery pQuery => exact delQuery_passes net pQuery
  | playChan pClient pChan => exact sendChanBuffer_passes hok
  | playQuery pClient pQuery => exact playQuery_passes net pClient pQuery
  | clearChan pChan => exact clearChanBuffer_passes net pChan
  | clearQueries => exact clearQueryBuffer_passes net
  | setChanBufferCount pChan u => exact setChanBufferCount_passes net pChan u
  | setQueryBufferCount pQuery u => exact setQueryBufferCount_passes net pQuery u
  | setAutoClearChanBuffer pChan b => exact setAutoClearChanBuffer_passes net pChan b
  | setAutoClearQueryBuffer b => exact .of_held rfl (List.Subset.refl _) fun _ h => .inl h

/-- **No stored line is lost**, in any run whose events meet `EventOk`: it is still held, or it was put to a client who was
attached, displaced by a size limit, deleted with its channel or query, or cleared by a command or a setting. -/
theorem not_lost (net : CIRCNetwork) (hstart : net.Initial) (es : List Event)
    (hok : Along step (fun _ net e => net.EventOk e) es net) : (es.foldl step net).NotLost := by
  have hnet : net.NotLost := by
    intro uLine hlt
    rw [hstart.next] at hlt
    exact absurd hlt (Nat.not_lt_zero uLine)
  exact along_inv step (fun e _ net (h : net.NotLost) he => (step_passes net e he).notLost h) es net hnet hok

end CIRCNetwork

/-! ### A detached channel -/

/-- a network of a user with the usual settings -/
def newNetwork : CIRCNetwork := ⟨true, true, true, 50, 50, 50, [], [], [], ⟨[], 250⟩, 0, []⟩

theorem newNetwork_initial : newNetwork.Initial := ⟨rfl, rfl, rfl⟩

/-- a client without capabilities -/
def plainClient : CClient := ⟨⟨lit "me", false, fun _ s => s⟩, 1, false, false, false⟩

def chanLine (sText : CString) : CBufLine :=
  ⟨⟨⟨lit "n", lit "u", lit "h"⟩, lit "PRIVMSG", [lit "#c", lit "{text}"], .empty, ⟨0, 0⟩, .Text, true⟩, sText⟩

/-- a client joins a channel, detaches it and goes away; then a line comes -/
def detachedRun : List Event :=
  [.connect plainClient, .addChan, .setIsOn 0 true, .detach [0], .disconnect 1,
    .chanMessage 0 (chanLine (lit "hi")) false]

/-- a client comes back and attaches the channel -/
def attachRun : List Event := detachedRun ++ [Event.connect plainClient, Event.attach [0]]

/-- then it gets the line -/
theorem not_lost_attach : (attachRun.foldl CIRCNetwork.step newNetwork).NotLost := by
  have hnone : ∀ query ∈ ([] : List CQuery), ∀ l ∈ CBuffer.lines query.buffer,
      CIRCNetwork.skips plainClient (Prod.snd l) = false := fun _ h => nomatch h
  refine CIRCNetwork.not_lost newNetwork newNetwork_initial attachRun ?_
  exact ⟨fun _ => hnone, trivial, trivial, trivial, trivial, fun h => absurd h (by decide), fun _ => hnone,
    fun _ _ _ _ _ _ _ => cons_ne_nil _ _, trivial⟩

/-- autoattach attaches the channel before that, for another line -/
def autoattachRun : List Event := detachedRun ++ [Event.chanMessage 0 (chanLine (lit "ho")) true]

/-- **Attached unseen.** The first line is gone, and nobody has got it. -/
theorem attached_unseen : newNetwork.Initial ∧ ¬(autoattachRun.foldl CIRCNetwork.step newNetwork).NotLost := by
  refine ⟨newNetwork_initial, fun h => ?_⟩
  have hgone : (autoattachRun.foldl CIRCNetwork.step newNetwork).held = [1] := rfl
  have hjournal : (autoattachRun.foldl CIRCNetwork.step newNetwork).journal = [] := rfl
  have hknown := h 0 (by decide)
  rw [CIRCNetwork.Known, hgone, hjournal] at hknown
  simp at hknown

end ZNC.Playback
