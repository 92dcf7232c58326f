/-
The module route_replies (`modules/route_replies.cpp`): the replies to a request go to the client that asked.

Requests wait in a queue for each client, and one is outstanding at a time: `m_pDoing` and `m_pReplies` say whose it is and which
replies belong to it. `SendRequest` is called whenever that may have become free.

Results:
- `Inv`, `step_inv`: what holds in every reachable state;
- `queue_disciplined`: the queue over every run. A request is lost with its client, with the connection to the server, and also
  when the server accepts the connection, which drops what was asked before.
-/
import ZNC.Message

namespace ZNC

open List Option OrdMap

namespace RouteReplies

open CString

/-! ## Tables -/

structure Reply where
  szReply : CString
  bLastResponse : Bool
deriving DecidableEq

def vRouteReplies : List (CString × List Reply) := [
  (lit "WHO",
    [⟨lit "402", true⟩, ⟨lit "352", false⟩, ⟨lit "315", true⟩, ⟨lit "354", false⟩, ⟨lit "403", true⟩]),
  (lit "LIST",
    [⟨lit "402", true⟩, ⟨lit "321", false⟩, ⟨lit "322", false⟩, ⟨lit "323", true⟩]),
  (lit "NAMES",
    [⟨lit "353", false⟩, ⟨lit "366", true⟩, ⟨lit "401", true⟩, ⟨lit "403", true⟩]),
  (lit "LUSERS",
    [⟨lit "251", false⟩, ⟨lit "252", false⟩, ⟨lit "253", false⟩, ⟨lit "254", false⟩, ⟨lit "255", false⟩,
     ⟨lit "265", false⟩, ⟨lit "266", true⟩]),
  (lit "WHOIS",
    [⟨lit "311", false⟩, ⟨lit "312", false⟩, ⟨lit "313", false⟩, ⟨lit "317", false⟩, ⟨lit "319", false⟩,
     ⟨lit "320", false⟩, ⟨lit "301", false⟩, ⟨lit "276", false⟩, ⟨lit "330", false⟩, ⟨lit "337", false⟩,
     ⟨lit "338", false⟩, ⟨lit "378", false⟩, ⟨lit "671", false⟩, ⟨lit "307", false⟩, ⟨lit "379", false⟩,
     ⟨lit "760", false⟩, ⟨lit "318", true⟩, ⟨lit "401", true⟩, ⟨lit "402", true⟩, ⟨lit "431", true⟩]),
  (lit "PING",
    [⟨lit "PONG", true⟩, ⟨lit "402", true⟩, ⟨lit "409", true⟩]),
  (lit "USERHOST",
    [⟨lit "302", true⟩, ⟨lit "461", true⟩]),
  (lit "TIME",
    [⟨lit "391", true⟩, ⟨lit "402", true⟩]),
  (lit "WHOWAS",
    [⟨lit "406", false⟩, ⟨lit "312", false⟩, ⟨lit "314", false⟩, ⟨lit "330", false⟩, ⟨lit "338", false⟩,
     ⟨lit "369", true⟩, ⟨lit "431", true⟩]),
  (lit "ISON",
    [⟨lit "303", true⟩, ⟨lit "461", true⟩]),
  (lit "LINKS",
    [⟨lit "364", false⟩, ⟨lit "365", true⟩, ⟨lit "402", true⟩]),
  (lit "MAP",
    [⟨lit "006", false⟩, ⟨lit "270", false⟩, ⟨lit "015", false⟩, ⟨lit "017", true⟩, ⟨lit "007", true⟩,
     ⟨lit "481", true⟩]),
  (lit "TRACE",
    [⟨lit "200", false⟩, ⟨lit "201", false⟩, ⟨lit "202", false⟩, ⟨lit "203", false⟩, ⟨lit "204", false⟩,
     ⟨lit "205", false⟩, ⟨lit "206", false⟩, ⟨lit "208", false⟩, ⟨lit "261", false⟩, ⟨lit "262", true⟩,
     ⟨lit "402", true⟩]),
  (lit "USERS",
    [⟨lit "265", false⟩, ⟨lit "266", true⟩, ⟨lit "392", false⟩, ⟨lit "393", false⟩, ⟨lit "394", true⟩,
     ⟨lit "395", false⟩, ⟨lit "402", true⟩, ⟨lit "424", true⟩, ⟨lit "446", true⟩]),
  (lit "METADATA",
    [⟨lit "761", false⟩, ⟨lit "762", true⟩, ⟨lit "765", true⟩, ⟨lit "766", true⟩, ⟨lit "767", true⟩, ⟨lit "768", true⟩,
     ⟨lit "769", true⟩]),
  (lit "MODE",
    [⟨lit "482", true⟩, ⟨lit "346", false⟩, ⟨lit "347", true⟩, ⟨lit "367", false⟩, ⟨lit "368", true⟩,
     ⟨lit "348", false⟩, ⟨lit "349", true⟩, ⟨lit "403", true⟩, ⟨lit "442", true⟩, ⟨lit "467", true⟩, ⟨lit "472", true⟩,
     ⟨lit "501", true⟩, ⟨lit "502", true⟩]),
  (lit "TOPIC",
    [⟨lit "461", true⟩, ⟨lit "403", true⟩, ⟨lit "442", true⟩, ⟨lit "482", true⟩, ⟨lit "331", true⟩, ⟨lit "332", false⟩,
     ⟨lit "333", true⟩])]

/-- a request that waits, with its number in the order of arrival -/
structure Request where
  uId : ℕ
  msg : CMessage
  reply : List Reply
deriving DecidableEq

/-! ## Model -/

/-- what the module does to the outside -/
inductive Effect where
  | PutIRC (pClient : ℕ) (req : Request)
  | PutClient (pClient : ℕ) (msg : CMessage)
  /-- the message of a client is left to the core, which sends it on -/
  | ContinueUser (pClient : ℕ) (msg : CMessage)
  /-- the message of the server is left to the core, which passes it to the clients -/
  | ContinueRaw (msg : CMessage)
  /-- the replies that the report of a timeout lists -/
  | Expected (vsReplies : VCString)
  /-- a null table is walked -/
  | NullTable
deriving DecidableEq

/-- The members of the module. Timers are numbered: `linked` is the one in the list of the module under the name "RouteTimeout",
`running` are those that will run. The last two fields record the requests that came and those that were sent, newest first, with
their clients. -/
structure CRouteRepliesMod where
  pDoing : Option ℕ
  pReplies : Option (List Reply)
  lastRequest : Option CMessage
  vsPending : OrdMap ℕ (List Request)
  linked : Option ℕ
  running : List ℕ
  uTimer : ℕ
  uRequests : ℕ
  sent : List (ℕ × ℕ)

namespace CRouteRepliesMod

def init : CRouteRepliesMod := ⟨none, none, none, .empty, none, [], 0, 0, []⟩

def remTimer (s : CRouteRepliesMod) : CRouteRepliesMod :=
  match s.linked with
  | some t => { s with linked := none, running := s.running.filter (· ≠ t) }
  | none => s

/-- a timer that is still in the list is stopped and taken out, and a new one is added -/
def restartTimer (s : CRouteRepliesMod) : CRouteRepliesMod :=
  let s := s.remTimer
  { s with linked := some s.uTimer, running := s.uTimer :: s.running, uTimer := s.uTimer + 1 }

/-- `SendRequest` with nothing outstanding: a client without requests is taken out of the map -/
def sendFrom (s : CRouteRepliesMod) : List (ℕ × List Request) → CRouteRepliesMod × List Effect
  | [] => (s, [])
  | (pClient, []) :: it => sendFrom { s with vsPending := s.vsPending.erase pClient } it
  | (pClient, req :: reqs) :: _ =>
    ({ s.restartTimer with
        pDoing := some pClient
        pReplies := some req.reply
        lastRequest := some req.msg
        vsPending := s.vsPending.insert pClient reqs
        sent := (req.uId, pClient) :: s.sent },
      [.PutIRC pClient req])

def sendRequest (s : CRouteRepliesMod) : CRouteRepliesMod × List Effect :=
  if s.pDoing.isSome || s.pReplies.isSome then (s, []) else s.sendFrom s.vsPending.entries

def onIRCConnected (s : CRouteRepliesMod) : CRouteRepliesMod :=
  { s with pDoing := none, pReplies := none, vsPending := .empty }.remTimer

def onIRCDisconnected (s : CRouteRepliesMod) : CRouteRepliesMod := s.onIRCConnected

/-- nothing is outstanding any more -/
def clear (s : CRouteRepliesMod) : CRouteRepliesMod := { s with pDoing := none, pReplies := none }

def onClientDisconnect (s : CRouteRepliesMod) (pClient : ℕ) : CRouteRepliesMod × List Effect :=
  let s := if s.pDoing = some pClient then s.remTimer.clear else s
  { s with vsPending := s.vsPending.erase pClient }.sendRequest

def routeReply (s : CRouteRepliesMod) (msg : CMessage) (bFinished : Bool) : CRouteRepliesMod × List Effect :=
  match s.pDoing with
  | none => (s, [.ContinueRaw msg])
  | some pClient =>
    if bFinished then
      let r := s.remTimer.clear.sendRequest
      (r.1, .PutClient pClient msg :: r.2)
    else (s, [.PutClient pClient msg])

/-- whether the message is a reply to the last request, and then whether it is the last one -/
def isReply (s : CRouteRepliesMod) (replies : List Reply) (msg : CMessage) : Option Bool :=
  -- ":server 461 nick WHO :Not enough parameters"
  if msg.sCommand.asUpper = lit "461" ∧
    s.lastRequest.any (fun req => req.sCommand.equals (msg.getParam 1)) then some true
  else (replies.find? fun r => r.szReply = msg.sCommand.asUpper).map Reply.bLastResponse

def onRawMessage (s : CRouteRepliesMod) (msg : CMessage) : CRouteRepliesMod × List Effect :=
  match s.pReplies.bind fun replies => s.isReply replies msg with
  | some bLast => s.routeReply msg bLast
  | none => (s, [.ContinueRaw msg])

/-- the parameters from one on are empty -/
def noParamsFrom (Message : CMessage) (uIdx : UInt32) : Bool := Message.getParamsColon uIdx 0xFFFFFFFF = some []

/-- a mode or a topic that asks for something, and any other command -/
def asks (Message : CMessage) : Bool :=
  match Message.eType with
  | .Mode =>
    let sMode := (Message.getParam 1).trimPrefix_n (lit "+")
    noParamsFrom Message 2 && Message.getParam 1 ≠ [] && (sMode = lit "I" || sMode = lit "b" || sMode = lit "e")
  | .Topic => noParamsFrom Message 1
  | _ => true

/-- the replies to a message that is routed -/
def repliesTo (Message : CMessage) : Option (List Reply) :=
  if asks Message then (vRouteReplies.find? fun e => e.1 = Message.sCommand).map Prod.snd else none

/-- `bConnected` is whether there is a connected socket to the server -/
def onUserRawMessage (s : CRouteRepliesMod) (bConnected : Bool) (pClient : ℕ) (Message : CMessage) :
    CRouteRepliesMod × List Effect :=
  match (if bConnected then repliesTo Message else none) with
  | some vReplies =>
    { s with
      vsPending := s.vsPending.insert pClient
        ((s.vsPending.find pClient).getD [] ++ [Request.mk s.uRequests Message vReplies])
      uRequests := s.uRequests + 1 }.sendRequest
  | none => (s, [.ContinueUser pClient Message])

/-- the lines of the report for the expected replies -/
def expectedLines (replies : List Reply) : VCString :=
  replies.map fun r => if r.bLastResponse then r.szReply ++ lit " (last)" else r.szReply

def timeout (s : CRouteRepliesMod) (bSilent : Bool) : CRouteRepliesMod × List Effect :=
  let report := if bSilent then [] else [s.pReplies.elim .NullTable fun replies => .Expected (expectedLines replies)]
  (s.clear.sendRequest.1, report ++ s.clear.sendRequest.2)

end CRouteRepliesMod

/-- what happens to the module -/
inductive Op where
  | OnUserRawMessage (bConnected : Bool) (pClient : ℕ) (Message : CMessage)
  | OnRawMessage (msg : CMessage)
  /-- a timer runs, its only time -/
  | RunJob (t : ℕ) (bSilent : Bool)
  /-- the event loop deletes a timer that has run or was stopped -/
  | DeleteTimer (t : ℕ)
  | OnClientDisconnect (pClient : ℕ)
  | OnIRCConnected
  | OnIRCDisconnected

/-- a step with its effects -/
structure Step where
  before : CRouteRepliesMod
  op : Op
  effects : List Effect
  after : CRouteRepliesMod

namespace CRouteRepliesMod

/-- the state after a step; only timers that run do so, and only others are deleted by the loop -/
def apply (s : CRouteRepliesMod) : Op → Option (CRouteRepliesMod × List Effect)
  | .OnUserRawMessage bConnected pClient Message => some (s.onUserRawMessage bConnected pClient Message)
  | .OnRawMessage msg => some (s.onRawMessage msg)
  | .RunJob t bSilent =>
    if t ∈ s.running then some ({ s with running := s.running.filter (· ≠ t) }.timeout bSilent) else none
  | .DeleteTimer t =>
    if t ∈ s.running then none else some ({ s with linked := s.linked.filter (· ≠ t) }, [])
  | .OnClientDisconnect pClient => some (s.onClientDisconnect pClient)
  | .OnIRCConnected => some (s.onIRCConnected, [])
  | .OnIRCDisconnected => some (s.onIRCDisconnected, [])

def steps (s : CRouteRepliesMod) : List Op → Option (List Step)
  | [] => some []
  | op :: ops => (s.apply op).bind fun r => (r.1.steps ops).map (⟨s, op, r.2, r.1⟩ :: ·)

/-! ## Statement -/

/-- the requests of a client that wait -/
def pendingOf (s : CRouteRepliesMod) (pClient : ℕ) : List Request := (s.vsPending.find pClient).getD []

/-- the numbers of the requests of a client that were sent, oldest first -/
def sentOf (s : CRouteRepliesMod) (pClient : ℕ) : List ℕ :=
  ((s.sent.filter fun r => r.2 = pClient).map Prod.fst).reverse

/-- the step ends the outstanding request: its last reply has come, or its time is over -/
def ends (s : CRouteRepliesMod) : Op → Bool
  | .OnRawMessage msg => (s.pReplies.bind fun replies => s.isReply replies msg) = some true
  | .RunJob _ _ => s.pDoing.isSome
  | _ => false

end CRouteRepliesMod

/-- the request that is sent, with its client -/
def Effect.put : Effect → Option (ℕ × ℕ)
  | .PutIRC pClient req => some (req.uId, pClient)
  | _ => none

/-- what is asked of a step -/
structure Step.Sound (t : Step) : Prop where
  paired : t.after.pDoing.isSome = t.after.pReplies.isSome
  /-- the timer runs only while a request is outstanding -/
  timer : t.after.running ≠ [] → t.after.pDoing.isSome
  table : Effect.NullTable ∉ t.effects
  /-- what is recorded as sent is sent -/
  log : t.after.sent = (t.effects.filterMap Effect.put).reverse ++ t.before.sent
  once : (t.after.sent.map Prod.fst).Nodup
  /-- the requests of a client are sent and wait in the order they came, each once -/
  order : ∀ pClient, (t.after.sentOf pClient ++ (t.after.pendingOf pClient).map Request.uId).Pairwise (· < ·)
  /-- a request that waited waits, is sent, or is lost with its client or the connection, or when a connection is accepted -/
  kept : ∀ pClient, ∀ req ∈ t.before.pendingOf pClient,
    req ∈ t.after.pendingOf pClient ∨ (req.uId, pClient) ∈ t.after.sent ∨
      t.op = .OnClientDisconnect pClient ∨ t.op = .OnIRCDisconnected ∨ t.op = .OnIRCConnected
  /-- a new one that is routed waits or is sent -/
  added : ∀ pClient Message, t.op = .OnUserRawMessage true pClient Message →
    (CRouteRepliesMod.repliesTo Message).isSome →
    (∃ req ∈ t.after.pendingOf pClient, req.uId = t.before.uRequests) ∨ (t.before.uRequests, pClient) ∈ t.after.sent
  /-- when a request has ended and others wait, one of them is sent -/
  next : t.before.ends t.op = true → (∃ pClient, t.before.pendingOf pClient ≠ []) →
    ∃ pClient, ∃ req ∈ t.before.pendingOf pClient, t.after.sent = (req.uId, pClient) :: t.before.sent
  /-- and none waits while nothing is outstanding -/
  idle : t.after.pDoing = none → ∀ pClient, t.after.pendingOf pClient = []

/-! ## Invariant -/

namespace CRouteRepliesMod

/-- the requests of a client in the order they were sent, and behind them those that wait -/
def line (s : CRouteRepliesMod) (pClient : ℕ) : List ℕ :=
  s.sentOf pClient ++ (s.pendingOf pClient).map Request.uId

/-- what holds while nothing was looked for in the queue -/
structure Core (s : CRouteRepliesMod) : Prop where
  paired : s.pDoing.isSome = s.pReplies.isSome
  rests : s.pDoing = none → s.running = []
  runs : s.pDoing ≠ none → ∃ t, s.linked = some t ∧ s.running = [t]
  fresh : ∀ t, s.linked = some t → t < s.uTimer
  order : ∀ pClient, (s.line pClient).Pairwise (· < ·)
  owner : ∀ pClient pClient', ∀ i ∈ s.line pClient, i ∈ s.line pClient' → pClient = pClient'
  old : ∀ pClient, ∀ i ∈ s.line pClient, i < s.uRequests

/-- what holds in every reachable state -/
structure Inv (s : CRouteRepliesMod) : Prop extends s.Core where
  idle : s.pDoing = none → ∀ pClient, s.pendingOf pClient = []

theorem init_inv : init.Inv where
  paired := rfl
  rests _ := rfl
  runs h := absurd rfl h
  fresh := by simp [init]
  order _ := List.Pairwise.nil
  owner _ _ i hi := absurd hi (by simp [line, sentOf, pendingOf, init])
  old _ i hi := absurd hi (by simp [line, sentOf, pendingOf, init])
  idle _ _ := rfl

variable {s : CRouteRepliesMod}

theorem restartTimer_pending (s : CRouteRepliesMod) (p : OrdMap ℕ (List Request)) :
    ({ s with vsPending := p } : CRouteRepliesMod).restartTimer = { s.restartTimer with vsPending := p } := by
  unfold restartTimer remTimer
  cases s.linked <;> rfl

/-- **What `SendRequest` does with nothing outstanding:** it finds that nothing waits, or it sends the first request of a client. -/
theorem sendFrom_spec (l : List (ℕ × List Request)) :
    ∀ {s : CRouteRepliesMod}, (∀ e ∈ l, s.pendingOf e.1 = e.2) → (l.map Prod.fst).Nodup →
      (∀ c, s.pendingOf c ≠ [] → c ∈ l.map Prod.fst) →
      (∃ p, s.sendFrom l = ({ s with vsPending := p }, []) ∧
        ∀ c, ({ s with vsPending := p } : CRouteRepliesMod).pendingOf c = [] ∧ s.pendingOf c = []) ∨
      ∃ p c req reqs, s.pendingOf c = req :: reqs ∧
        s.sendFrom l = ({ s.restartTimer with
            pDoing := some c
            pReplies := some req.reply
            lastRequest := some req.msg
            vsPending := p
            sent := (req.uId, c) :: s.sent }, [.PutIRC c req]) ∧
        ∀ c', ({ s with vsPending := p } : CRouteRepliesMod).pendingOf c' =
          if c' = c then reqs else s.pendingOf c' := by
  induction l with
  | nil =>
    intro s _ _ hall
    have hnone : ∀ c, s.pendingOf c = [] := fun c => by
      by_contra hne
      exact absurd (hall c hne) (by simp)
    exact .inl ⟨s.vsPending, rfl, fun c => ⟨hnone c, hnone c⟩⟩
  | cons e l ih =>
    obtain ⟨c, reqs⟩ := e
    intro s hagree hnodup hall
    rw [map_cons, nodup_cons] at hnodup
    have hc : s.pendingOf c = reqs := hagree _ (mem_cons_self ..)
    cases reqs with
    | nil =>
      -- the client is taken out of the map, which changes nothing
      have herase : ∀ c', ({ s with vsPending := s.vsPending.erase c } : CRouteRepliesMod).pendingOf c' =
        s.pendingOf c' := by
        intro c'
        simp only [pendingOf, find_erase]
        split_ifs with hcc
        · rw [hcc]
          exact hc.symm
        · rfl
      have hrest := ih (s := { s with vsPending := s.vsPending.erase c })
        (fun e he => by rw [herase, hagree e (mem_cons_of_mem _ he)]) hnodup.2 (fun c' hne => by
          rw [herase] at hne
          rcases mem_cons.1 (hall c' hne) with rfl | hm
          · exact absurd hc hne
          · exact hm)
      simp only [herase, restartTimer_pending] at hrest
      exact hrest
    | cons req reqs =>
      refine .inr ⟨s.vsPending.insert c reqs, c, req, reqs, hc, rfl, fun c' => ?_⟩
      simp only [pendingOf, find_insert]
      split_ifs with hcc
      · rfl
      · rfl

theorem sendRequest_cases (h : s.Core) :
    s.pDoing ≠ none ∧ s.sendRequest = (s, []) ∨
    s.pDoing = none ∧ (∃ p, s.sendRequest = ({ s with vsPending := p }, []) ∧
      ∀ c, ({ s with vsPending := p } : CRouteRepliesMod).pendingOf c = [] ∧ s.pendingOf c = []) ∨
    s.pDoing = none ∧ ∃ p c req reqs, s.pendingOf c = req :: reqs ∧
      s.sendRequest = ({ s.restartTimer with
          pDoing := some c
          pReplies := some req.reply
          lastRequest := some req.msg
          vsPending := p
          sent := (req.uId, c) :: s.sent }, [.PutIRC c req]) ∧
      ∀ c', ({ s with vsPending := p } : CRouteRepliesMod).pendingOf c' = if c' = c then reqs else s.pendingOf c' := by
  have hpaired := h.paired
  rcases eq_or_ne s.pDoing none with hd | hd
  · rw [hd, isSome_none] at hpaired
    have hsend : s.sendRequest = s.sendFrom s.vsPending.entries := by simp [sendRequest, hd, ← hpaired]
    have hagree : ∀ e ∈ s.vsPending.entries, s.pendingOf e.1 = e.2 := by
      intro e he
      rw [pendingOf, (mem_entries_iff ..).1 he, getD_some]
    have hall : ∀ c, s.pendingOf c ≠ [] → c ∈ s.vsPending.entries.map Prod.fst := by
      intro c hne
      by_contra hm
      have hnone : s.vsPending.find c = none := by
        rw [← not_isSome_iff_eq_none, find_isSome_iff]
        exact hm
      exact hne (by rw [pendingOf, hnone, getD_none])
    rcases sendFrom_spec s.vsPending.entries hagree s.vsPending.keys_nodup hall with ⟨p, heq, hp⟩ |
      ⟨p, c, req, reqs, hc, heq, hp⟩
    · exact .inr (.inl ⟨hd, p, hsend.trans heq, hp⟩)
    · exact .inr (.inr ⟨hd, p, c, req, reqs, hc, hsend.trans heq, hp⟩)
  · exact .inl ⟨hd, by simp [sendRequest, isSome_iff_ne_none, hd]⟩

/-- what a call of `SendRequest` leaves -/
structure Sends (s t : CRouteRepliesMod) (effects : List Effect) : Prop where
  inv : t.Inv
  line : ∀ c, t.line c = s.line c
  kept : ∀ c, ∀ req ∈ s.pendingOf c, req ∈ t.pendingOf c ∨ (req.uId, c) ∈ t.sent
  next : s.pDoing = none → (∃ c, s.pendingOf c ≠ []) → ∃ c, ∃ req ∈ s.pendingOf c, t.sent = (req.uId, c) :: s.sent
  table : Effect.NullTable ∉ effects
  log : t.sent = (effects.filterMap Effect.put).reverse ++ s.sent

theorem restartTimer_spec (h : s.Core) (hdoing : s.pDoing = none) :
    s.restartTimer.linked = some s.uTimer ∧ s.restartTimer.running = [s.uTimer] ∧ s.restartTimer.uTimer = s.uTimer + 1 ∧
      s.restartTimer.uRequests = s.uRequests := by
  have hrests := h.rests hdoing
  unfold restartTimer remTimer
  cases s.linked with
  | none => exact ⟨rfl, by simp [hrests], rfl, rfl⟩
  | some t => exact ⟨rfl, by simp [hrests], rfl, rfl⟩

theorem Core.of_line {t : CRouteRepliesMod} (h : s.Core) (hpaired : t.pDoing.isSome = t.pReplies.isSome)
    (hrests : t.pDoing = none → t.running = []) (hruns : t.pDoing ≠ none → ∃ i, t.linked = some i ∧ t.running = [i])
    (hfresh : ∀ i, t.linked = some i → i < t.uTimer) (hline : ∀ c, (t.line c).Sublist (s.line c))
    (hrequests : s.uRequests ≤ t.uRequests) : t.Core where
  paired := hpaired
  rests := hrests
  runs := hruns
  fresh := hfresh
  order c := (h.order c).sublist (hline c)
  owner c c' i hi hi' := h.owner c c' i ((hline c).subset hi) ((hline c').subset hi')
  old c i hi := (h.old c i ((hline c).subset hi)).trans_le hrequests

theorem sendRequest_sends (h : s.Core) : Sends s s.sendRequest.1 s.sendRequest.2 := by
  rcases sendRequest_cases h with ⟨hdoing, heq⟩ | ⟨hdoing, p, heq, hp⟩ | ⟨hdoing, p, c, req, reqs, hc, heq, hp⟩
  · rw [heq]
    exact ⟨{ h with idle := fun hn => absurd hn hdoing }, fun _ => rfl, fun _ _ hm => .inl hm,
      fun hn => absurd hn hdoing,
      by simp, rfl⟩
  · rw [heq]
    have hline : ∀ c, ({ s with vsPending := p } : CRouteRepliesMod).line c = s.line c := fun c => by
      rw [line, line, (hp c).1, (hp c).2]
      rfl
    have hcore : ({ s with vsPending := p } : CRouteRepliesMod).Core :=
      h.of_line h.paired h.rests h.runs h.fresh (fun c => (hline c).symm ▸ List.Sublist.refl _) le_rfl
    refine ⟨{ hcore with idle := fun _ c => (hp c).1 }, hline, fun c req hm => ?_, fun _ hne => ?_, by simp, rfl⟩
    · exact absurd ((hp c).2 ▸ hm) (by simp)
    · obtain ⟨c, hc⟩ := hne
      exact absurd (hp c).2 hc
  · rw [heq]
    obtain ⟨hlinked, hrunning, htimer, hrequests⟩ := restartTimer_spec h hdoing
    have hline : ∀ c', ({ s.restartTimer with
          pDoing := some c, pReplies := some req.reply, lastRequest := some req.msg, vsPending := p
          sent := (req.uId, c) :: s.sent } : CRouteRepliesMod).line c' = s.line c' := by
      intro c'
      have hpend := hp c'
      unfold pendingOf at hpend
      simp only [line, sentOf, pendingOf, hpend]
      by_cases hcc : c' = c
      · subst hcc
        unfold pendingOf at hc
        simp [hc]
      · simp [hcc, Ne.symm hcc]
    have hcore := h.of_line (t := { s.restartTimer with
          pDoing := some c, pReplies := some req.reply, lastRequest := some req.msg, vsPending := p
          sent := (req.uId, c) :: s.sent }) rfl (fun hn => absurd hn (by simp)) (fun _ => ⟨_, hlinked, hrunning⟩)
      (fun t ht => by
        rw [← some.inj (hlinked.symm.trans ht)]
        exact htimer ▸ Nat.lt_succ_self _)
      (fun c' => (hline c').symm ▸ List.Sublist.refl _) hrequests.ge
    refine ⟨{ hcore with idle := fun hn => absurd hn (by simp) }, hline, fun c' r hm => ?_,
      fun _ _ => ⟨c, req, hc ▸ mem_cons_self .., rfl⟩, by simp, rfl⟩
    have hpend := hp c'
    unfold pendingOf at hpend hm ⊢
    by_cases hcc : c' = c
    · subst hcc
      unfold pendingOf at hc
      rw [hc] at hm
      rcases mem_cons.1 hm with rfl | hm
      · exact .inr (mem_cons_self ..)
      · exact .inl (by rw [hpend, if_pos rfl]; exact hm)
    · exact .inl (by rw [hpend, if_neg hcc]; exact hm)

/-! ## Steps -/

theorem nodup_fst {l : List (ℕ × ℕ)} (hsent : ∀ c, ((l.filter fun r => r.2 = c).map Prod.fst).Nodup)
    (howner : ∀ i c c', (i, c) ∈ l → (i, c') ∈ l → c = c') : (l.map Prod.fst).Nodup := by
  induction l with
  | nil => exact nodup_nil
  | cons r l ih =>
    obtain ⟨i, c⟩ := r
    rw [map_cons, nodup_cons]
    refine ⟨fun hi => ?_, ih (fun c' => ?_) fun j d d' hd hd' =>
      howner j d d' (mem_cons_of_mem _ hd) (mem_cons_of_mem _ hd')⟩
    · obtain ⟨⟨j, c'⟩, hm, rfl⟩ := mem_map.1 hi
      have hcc : c = c' := howner j c c' (mem_cons_self ..) (mem_cons_of_mem _ hm)
      have hnodup := hsent c
      rw [filter_cons_of_pos (by simp), map_cons, nodup_cons] at hnodup
      exact hnodup.1 (mem_map.2 ⟨(j, c'), mem_filter.2 ⟨hm, by simp [hcc]⟩, rfl⟩)
    · exact (hsent c').sublist (((sublist_cons_self (i, c) l).filter _).map _)

theorem Core.once (h : s.Core) : (s.sent.map Prod.fst).Nodup := by
  have hmem : ∀ i c, (i, c) ∈ s.sent → i ∈ s.line c := by
    intro i c hm
    refine mem_append_left _ (mem_reverse.2 (mem_map.2 ⟨(i, c), mem_filter.2 ⟨hm, ?_⟩, rfl⟩))
    simp
  refine nodup_fst (fun c => ?_) fun i c c' hm hm' => h.owner c c' i (hmem i c hm) (hmem i c' hm')
  have hsent : (s.sentOf c).Pairwise (· < ·) := (h.order c).sublist (sublist_append_left ..)
  exact nodup_reverse.1 (hsent.imp fun hlt => hlt.ne)

/-- **One step:** a part that may free the server and may change what waits, and then a call of `SendRequest`. -/
theorem Sends.sound {m t : CRouteRepliesMod} {op : Op} {effects rest : List Effect} (hsends : Sends m t rest)
    (heffects : effects.filterMap Effect.put = rest.filterMap Effect.put)
    (htable : Effect.NullTable ∈ effects → Effect.NullTable ∈ rest) (hsent : m.sent = s.sent)
    (hkept : ∀ c, ∀ req ∈ s.pendingOf c, req ∈ m.pendingOf c ∨ op = .OnClientDisconnect c)
    (hadded : ∀ c msg, op = .OnUserRawMessage true c msg → (repliesTo msg).isSome →
      ∃ req ∈ m.pendingOf c, req.uId = s.uRequests)
    (hnext : s.ends op = true → m.pDoing = none ∧
      ∀ c, m.pendingOf c = s.pendingOf c) : (Step.mk s op effects t).Sound where
  paired := hsends.inv.paired
  timer hne := by
    rw [isSome_iff_ne_none]
    exact fun hn => hne (hsends.inv.rests hn)
  table hm := hsends.table (htable hm)
  log := by rw [heffects, ← hsent, hsends.log]
  once := hsends.inv.once
  order := hsends.inv.order
  kept c req hm := by
    rcases hkept c req hm with hm | hop
    · exact (hsends.kept c req hm).imp_right .inl
    · exact .inr (.inr (.inl hop))
  added c msg hop hreplies := by
    obtain ⟨req, hm, hid⟩ := hadded c msg hop hreplies
    rcases hsends.kept c req hm with hm | hm
    · exact .inl ⟨req, hm, hid⟩
    · exact .inr (hid ▸ hm)
  next hends hne := by
    obtain ⟨hdoing, hpending⟩ := hnext hends
    obtain ⟨c, req, hm, ht⟩ := hsends.next hdoing (by simpa only [hpending] using hne)
    exact ⟨c, req, hpending c ▸ hm, by rw [← hsent]; exact ht⟩
  idle := hsends.inv.idle

theorem Inv.remTimer_running (h : s.Inv) : s.remTimer.running = [] := by
  rcases eq_or_ne s.pDoing none with hd | hd
  · unfold remTimer
    cases s.linked <;> simp [h.rests hd]
  · obtain ⟨t, hlinked, hrunning⟩ := h.runs hd
    simp [remTimer, hlinked, hrunning]

theorem remTimer_linked (s : CRouteRepliesMod) : s.remTimer.linked = none := by
  unfold remTimer
  split
  · rfl
  · assumption

@[simp] theorem remTimer_vsPending (s : CRouteRepliesMod) : s.remTimer.vsPending = s.vsPending := by
  unfold remTimer
  split <;> rfl

@[simp] theorem remTimer_sent (s : CRouteRepliesMod) : s.remTimer.sent = s.sent := by
  unfold remTimer
  split <;> rfl

@[simp] theorem remTimer_uRequests (s : CRouteRepliesMod) : s.remTimer.uRequests = s.uRequests := by
  unfold remTimer
  split <;> rfl

theorem Core.freed {t : CRouteRepliesMod} (h : s.Core) (hdoing : t.pDoing = none) (hreplies : t.pReplies = none)
    (hrunning : t.running = []) (hfresh : ∀ i, t.linked = some i → i < t.uTimer)
    (hline : ∀ c, (t.line c).Sublist (s.line c)) (hrequests : s.uRequests ≤ t.uRequests) : t.Core :=
  h.of_line (by rw [hdoing, hreplies]; rfl) (fun _ => hrunning) (fun hn => absurd hdoing hn) hfresh hline hrequests

theorem Inv.released (h : s.Inv) : s.remTimer.clear.Core :=
  h.freed rfl rfl h.remTimer_running (fun i hi => absurd (s.remTimer_linked.symm.trans hi) (by simp))
    (fun c => by simp [line, sentOf, pendingOf, clear]) (by simp [clear])

theorem Core.same (h : s.Core) (hidle : s.pDoing = none → ∀ c, s.pendingOf c = []) : Sends s s [] :=
  ⟨{ h with idle := hidle }, fun _ => rfl, fun _ _ hm => .inl hm,
    fun hn hne => absurd hne (by simp [hidle hn]), by simp, rfl⟩

theorem Inv.queued (h : s.Inv) (c : ℕ) (Message : CMessage) (vReplies : List Reply) :
    ({ s with
      vsPending := s.vsPending.insert c ((s.vsPending.find c).getD [] ++ [Request.mk s.uRequests Message vReplies])
      uRequests := s.uRequests + 1 } : CRouteRepliesMod) |> fun m =>
      m.Core ∧ ∀ c', m.pendingOf c' =
        if c' = c then s.pendingOf c ++ [Request.mk s.uRequests Message vReplies] else s.pendingOf c' := by
  set m : CRouteRepliesMod := { s with
    vsPending := s.vsPending.insert c ((s.vsPending.find c).getD [] ++ [Request.mk s.uRequests Message vReplies])
    uRequests := s.uRequests + 1 } with hm
  have hpending : ∀ c', m.pendingOf c' =
      if c' = c then s.pendingOf c ++ [Request.mk s.uRequests Message vReplies] else s.pendingOf c' := by
    intro c'
    simp only [hm, pendingOf, find_insert]
    split_ifs <;> rfl
  have hline : ∀ c', m.line c' = if c' = c then s.line c ++ [s.uRequests] else s.line c' := by
    intro c'
    simp only [line, hpending]
    split_ifs with hcc
    · simp [hm, hcc, sentOf]
    · rfl
  have hmem : ∀ c', ∀ i ∈ m.line c', i ∈ s.line c' ∨ i = s.uRequests ∧ c' = c := by
    intro c' i hi
    rw [hline] at hi
    split_ifs at hi with hcc
    · subst hcc
      simpa using hi
    · exact .inl hi
  refine ⟨⟨h.paired, h.rests, h.runs, h.fresh, fun c' => ?_, fun c₁ c₂ i hi hi' => ?_, fun c' i hi => ?_⟩, hpending⟩
  · rw [hline]
    split_ifs
    · refine pairwise_append.2 ⟨h.order c, pairwise_singleton _ _, fun i hi j hj => ?_⟩
      rw [mem_singleton.1 hj]
      exact h.old c i hi
    · exact h.order c'
  · rcases hmem c₁ i hi with h₁ | ⟨h₁, rfl⟩ <;> rcases hmem c₂ i hi' with h₂ | ⟨h₂, rfl⟩
    · exact h.owner c₁ c₂ i h₁ h₂
    · exact absurd (h.old c₁ i h₁) (by omega)
    · exact absurd (h.old c₂ i h₂) (by omega)
    · rfl
  · rcases hmem c' i hi with hi | ⟨rfl, -⟩
    · exact (h.old c' i hi).trans (Nat.lt_succ_self _)
    · exact Nat.lt_succ_self _

theorem onUserRawMessage_sound (h : s.Inv) (bConnected : Bool) (c : ℕ) (Message : CMessage) :
    (s.onUserRawMessage bConnected c Message).1.Inv ∧
      (Step.mk s (.OnUserRawMessage bConnected c Message) (s.onUserRawMessage bConnected c Message).2
        (s.onUserRawMessage bConnected c Message).1).Sound := by
  unfold onUserRawMessage
  split
  next vReplies hreplies =>
    obtain ⟨hcore, hpending⟩ := h.queued c Message vReplies
    have hsends := sendRequest_sends hcore
    refine ⟨hsends.inv, hsends.sound rfl id rfl (fun c' req hreq => .inl ?_) (fun c' msg hop _ => ?_) (by simp [ends])⟩
    · rw [hpending]
      split_ifs with hcc
      · exact mem_append_left _ (hcc ▸ hreq)
      · exact hreq
    · injection hop with _ hc _
      subst hc
      exact ⟨⟨s.uRequests, Message, vReplies⟩, by rw [hpending]; simp, rfl⟩
  next hreplies =>
    have hsends := h.toCore.same h.idle
    refine ⟨h, hsends.sound (by simp [Effect.put]) (by simp) rfl (fun c' req hreq =>
      .inl hreq) (fun c' msg hop hsome => ?_)
      (by simp [ends])⟩
    injection hop with hb _ hmsg
    subst hb hmsg
    rw [if_pos rfl] at hreplies
    exact absurd hsome (by simp [hreplies])

theorem onRawMessage_sound (h : s.Inv) (msg : CMessage) :
    (s.onRawMessage msg).1.Inv ∧
      (Step.mk s (.OnRawMessage msg) (s.onRawMessage msg).2 (s.onRawMessage msg).1).Sound := by
  have hsame := h.toCore.same h.idle
  have hstays : ∀ effects : List Effect, effects.filterMap Effect.put = [] → Effect.NullTable ∉ effects →
      s.ends (.OnRawMessage msg) = false → s.Inv ∧ (Step.mk s (.OnRawMessage msg) effects s).Sound :=
    fun effects hput htable hends => ⟨h, hsame.sound hput (fun hm => absurd hm htable) rfl (fun _ _ hm => .inl hm)
      (fun _ _ hop => by simp at hop) (by simp [hends])⟩
  unfold onRawMessage
  cases hreply : s.pReplies.bind fun replies => s.isReply replies msg with
  | none => exact hstays _ rfl (by simp) (by simp [ends, hreply])
  | some bLast =>
    unfold routeReply
    cases hd : s.pDoing with
    | none =>
      have hpaired := h.paired
      rw [hd, isSome_none] at hpaired
      have hnone : s.pReplies = none := by simpa using hpaired.symm
      rw [hnone] at hreply
      cases hreply
    | some c =>
      cases bLast with
      | false => exact hstays _ rfl (by simp) (by simp [ends, hreply])
      | true =>
        have hsends := sendRequest_sends h.released
        exact ⟨hsends.inv, hsends.sound rfl (by simp) (by simp [clear]) (fun _ _ hm =>
          .inl (by simpa [pendingOf, clear] using hm))
          (fun _ _ hop => by simp at hop) (fun _ => ⟨rfl, fun _ => by simp [pendingOf, clear]⟩)⟩

theorem Inv.timedOut (h : s.Inv) {t : ℕ} (ht : t ∈ s.running) :
    s.pDoing ≠ none ∧ ({ s with running := s.running.filter (· ≠ t) } : CRouteRepliesMod).clear.Core := by
  have hdoing : s.pDoing ≠ none := fun hn => absurd ht (by simp [h.rests hn])
  obtain ⟨i, -, hrunning⟩ := h.runs hdoing
  have hti : t = i := by simpa [hrunning] using ht
  exact ⟨hdoing, h.freed rfl rfl (by simp [clear, hrunning, hti]) h.fresh (fun _ => List.Sublist.refl _) le_rfl⟩

theorem runJob_sound (h : s.Inv) {t : ℕ} (ht : t ∈ s.running) (bSilent : Bool) :
    ({ s with running := s.running.filter (· ≠ t) } : CRouteRepliesMod).timeout bSilent |> fun r =>
      r.1.Inv ∧ (Step.mk s (.RunJob t bSilent) r.2 r.1).Sound := by
  obtain ⟨hdoing, hcore⟩ := h.timedOut ht
  obtain ⟨replies, hreplies⟩ : ∃ replies, s.pReplies = some replies := by
    rw [← isSome_iff_exists, ← h.paired]
    exact isSome_iff_ne_none.2 hdoing
  have hsends := sendRequest_sends hcore
  refine ⟨hsends.inv, hsends.sound ?_ ?_ rfl (fun _ _ hm => .inl hm) (fun _ _ hop => by simp at hop) fun _ =>
    ⟨rfl, fun _ => rfl⟩⟩
  · unfold timeout
    rw [filterMap_append]
    cases bSilent <;> simp [hreplies, Effect.put, filterMap_cons]
  · cases bSilent <;> simp [timeout, hreplies]

theorem deleteTimer_sound (h : s.Inv) {t : ℕ} (ht : t ∉ s.running) :
    ({ s with linked := s.linked.filter (· ≠ t) } : CRouteRepliesMod).Inv ∧
      (Step.mk s (.DeleteTimer t) [] { s with linked := s.linked.filter (· ≠ t) }).Sound := by
  have hcore : ({ s with linked := s.linked.filter (· ≠ t) } : CRouteRepliesMod).Core := by
    refine h.of_line h.paired h.rests (fun hdoing => ?_) (fun i hi => ?_) (fun _ => List.Sublist.refl _) le_rfl
    · obtain ⟨i, hlinked, hrunning⟩ := h.runs hdoing
      have hne : i ≠ t := fun hit => ht (by simp [hrunning, hit])
      exact ⟨i, by simp [hlinked, hne], hrunning⟩
    · exact h.fresh i (filter_eq_some_iff.1 hi).1
  have hsends := hcore.same h.idle
  exact ⟨hsends.inv, hsends.sound rfl (by simp) rfl (fun _ _ hm => .inl hm) (fun _ _ hop => by
    simp at hop) (by simp [ends])⟩

theorem Inv.left (h : s.Inv) (c : ℕ) :
    (if s.pDoing = some c then s.remTimer.clear else s) |> fun m =>
      m.sent = s.sent ∧ ({ m with vsPending := m.vsPending.erase c } : CRouteRepliesMod).Core ∧
      ∀ c', ({ m with vsPending := m.vsPending.erase c } : CRouteRepliesMod).pendingOf c' =
        if c' = c then [] else s.pendingOf c' := by
  set m : CRouteRepliesMod := if s.pDoing = some c then s.remTimer.clear else s with hm
  have hfields : m.vsPending = s.vsPending ∧ m.sent = s.sent ∧ m.Core := by
    rw [hm]
    split_ifs
    · exact ⟨by simp [clear], by simp [clear], h.released⟩
    · exact ⟨rfl, rfl, h.toCore⟩
  obtain ⟨hpend, hsent, hcore⟩ := hfields
  have hpending : ∀ c', ({ m with vsPending := m.vsPending.erase c } : CRouteRepliesMod).pendingOf c' =
      if c' = c then [] else s.pendingOf c' := by
    intro c'
    simp only [pendingOf, find_erase, hpend]
    split_ifs <;> rfl
  refine ⟨hsent, hcore.of_line hcore.paired hcore.rests hcore.runs hcore.fresh (fun c' => ?_) le_rfl, hpending⟩
  have hsame : m.pendingOf c' = s.pendingOf c' := by rw [pendingOf, hpend, pendingOf]
  rw [line, line, hpending c', hsame]
  refine List.Sublist.append (List.Sublist.refl _) ?_
  split_ifs
  · exact nil_sublist _
  · exact List.Sublist.refl _

theorem onClientDisconnect_sound (h : s.Inv) (c : ℕ) :
    (s.onClientDisconnect c).1.Inv ∧
      (Step.mk s (.OnClientDisconnect c) (s.onClientDisconnect c).2 (s.onClientDisconnect c).1).Sound := by
  obtain ⟨hsent, hcore, hpending⟩ := h.left c
  have hsends := sendRequest_sends hcore
  unfold onClientDisconnect
  refine ⟨hsends.inv, hsends.sound rfl id hsent (fun c' req hreq => ?_) (fun _ _ hop => by
    simp at hop) (by simp [ends])⟩
  rw [hpending]
  split_ifs with hcc
  · exact .inr (by rw [hcc])
  · exact .inl hreq

theorem onIRCConnected_pDoing (s : CRouteRepliesMod) : s.onIRCConnected.pDoing = none := by
  unfold onIRCConnected remTimer
  split <;> rfl

theorem onIRCConnected_pending (s : CRouteRepliesMod) (c : ℕ) : s.onIRCConnected.pendingOf c = [] := by
  simp [pendingOf, onIRCConnected, find_empty]

theorem onIRCConnected_sound (h : s.Inv) {op : Op} (hop : op = .OnIRCConnected ∨ op = .OnIRCDisconnected) :
    s.onIRCConnected.Inv ∧ (Step.mk s op [] s.onIRCConnected).Sound := by
  have hsent : s.onIRCConnected.sent = s.sent := by simp [onIRCConnected]
  have hrunning : s.onIRCConnected.running = [] := by
    have hrun := h.remTimer_running
    unfold onIRCConnected
    unfold remTimer at hrun ⊢
    cases hlinked : s.linked <;> simpa [hlinked] using hrun
  have hreplies : s.onIRCConnected.pReplies = none := by
    unfold onIRCConnected remTimer
    split <;> rfl
  have hcore : s.onIRCConnected.Core := by
    refine h.freed s.onIRCConnected_pDoing hreplies hrunning
      (fun i hi => absurd ((remTimer_linked _).symm.trans hi) (by simp)) (fun c => ?_)
      (by simp [onIRCConnected])
    rw [line, line, onIRCConnected_pending, sentOf, sentOf, hsent]
    exact List.Sublist.append (List.Sublist.refl _) (nil_sublist _)
  have hinv : s.onIRCConnected.Inv := { hcore with idle := fun _ => s.onIRCConnected_pending }
  refine ⟨hinv, hinv.paired, fun hne => absurd hrunning hne, by simp, by simp [hsent], hcore.once,
    hcore.order, fun _ _ _ => ?_,
    fun _ _ hop' => ?_, fun hends => ?_, fun _ => s.onIRCConnected_pending⟩
  · rcases hop with rfl | rfl
    · exact .inr (.inr (.inr (.inr rfl)))
    · exact .inr (.inr (.inr (.inl rfl)))
  · rcases hop with rfl | rfl <;> simp at hop'
  · rcases hop with rfl | rfl <;> simp [ends] at hends

/-- **One step** keeps the invariant and is sound. -/
theorem apply_sound (h : s.Inv) {op : Op} {r : CRouteRepliesMod × List Effect} (hr : s.apply op = some r) :
    r.1.Inv ∧ (Step.mk s op r.2 r.1).Sound := by
  cases op with
  | OnUserRawMessage bConnected c Message =>
    cases hr
    exact onUserRawMessage_sound h bConnected c Message
  | OnRawMessage msg =>
    cases hr
    exact onRawMessage_sound h msg
  | RunJob t bSilent =>
    simp only [apply] at hr
    split_ifs at hr with ht
    cases hr
    exact runJob_sound h ht bSilent
  | DeleteTimer t =>
    simp only [apply] at hr
    split_ifs at hr with ht
    cases hr
    exact deleteTimer_sound h ht
  | OnClientDisconnect c =>
    cases hr
    exact onClientDisconnect_sound h c
  | OnIRCConnected =>
    cases hr
    exact onIRCConnected_sound h (.inl rfl)
  | OnIRCDisconnected =>
    cases hr
    exact onIRCConnected_sound h (.inr rfl)

theorem steps_sound {ops : List Op} :
    ∀ {s : CRouteRepliesMod}, s.Inv → ∀ {l}, s.steps ops = some l → ∀ t ∈ l, t.Sound := by
  induction ops with
  | nil =>
    intro s _ l hl t ht
    simp only [steps, some.injEq] at hl
    rw [← hl] at ht
    exact absurd ht (by simp)
  | cons op ops ih =>
    intro s h l hl t ht
    rw [steps, bind_eq_some_iff] at hl
    obtain ⟨r, hr, hl⟩ := hl
    obtain ⟨l', hl', rfl⟩ := map_eq_some_iff.1 hl
    obtain ⟨hinv, hsound⟩ := apply_sound h hr
    rcases mem_cons.1 ht with rfl | ht
    · exact hsound
    · exact ih hinv hl' t ht

/-- **The queue over every run:** whatever comes in whatever order, each step is sound. -/
theorem queue_disciplined {ops : List Op} {l : List Step} (h : init.steps ops = some l) : ∀ t ∈ l, t.Sound :=
  steps_sound init_inv h

/-- a command with one parameter -/
def command (sCommand sParam : CString) : CMessage :=
  { CMessage.blank CMessage.stoppedClock with sCommand := sCommand, vsParams := [sParam] }

theorem queue_disciplined_two_clients :
    (init.steps [.OnUserRawMessage true 0 (command (lit "WHO") (lit "#a")),
        .OnUserRawMessage true 1 (command (lit "WHOIS") (lit "n")), .OnClientDisconnect 0, .RunJob 1 true]).isSome ∧
      ∀ l, init.steps [.OnUserRawMessage true 0 (command (lit "WHO") (lit "#a")),
        .OnUserRawMessage true 1 (command (lit "WHOIS") (lit "n")), .OnClientDisconnect 0, .RunJob 1 true] = some l →
        ∀ t ∈ l, t.Sound :=
  ⟨by decide, fun _ h => queue_disciplined h⟩

/-- The socket is connected, the first request is sent and the second one waits. When the server accepts the connection, the second
one is dropped, although its client and the connection are there. -/
theorem queue_drops_waiting :
    ∃ l t req, init.steps [.OnUserRawMessage true 0 (command (lit "WHO") (lit "#a")),
        .OnUserRawMessage true 1 (command (lit "WHOIS") (lit "n")), .OnIRCConnected] = some l ∧ t ∈ l ∧
      req ∈ t.before.pendingOf 1 ∧ req ∉ t.after.pendingOf 1 ∧ (req.uId, 1) ∉ t.after.sent ∧
      t.op ≠ .OnClientDisconnect 1 ∧ t.op ≠ .OnIRCDisconnected := by
  refine ⟨_, _, _, rfl, mem_cons_of_mem _ (mem_cons_of_mem _ (mem_cons_self ..)),
    mem_cons_self .., ?_⟩
  refine ⟨by decide, by decide, fun h => ?_, fun h => ?_⟩
  · cases h
  · cases h

end CRouteRepliesMod

end RouteReplies

end ZNC
