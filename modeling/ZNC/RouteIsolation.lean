/-
Who receives the replies that route_replies routes (`modules/route_replies.cpp`).

The module is put beside a server that answers requests in the order in which they reached it. A request reaches the server from
the queue of the module, or directly when the module leaves it to the core.

Results:
- `isolated`: each reply goes to the client that asked, and nobody's request is sent beside that of another client, in every run in
  which the commands are in upper case, and the replies to a request come in time and are those of its table;
- `not_isolated`: a command in lower case is not found in the table. It is sent beside an outstanding request, and its replies go to
  the wrong client.
-/
import ZNC.RouteReplies

namespace ZNC

open List

namespace RouteReplies

open CString CRouteRepliesMod

/-! ## Model -/

/-- A request that reached the server. It has its number when it comes from the queue of the module. It is over when its last reply
has come, its time is over, or its client or the connection is gone. -/
structure Sent where
  pClient : ℕ
  msg : CMessage
  uId : Option ℕ
  bOver : Bool
deriving DecidableEq

/-- a request of the kinds that are routed, in any letter case -/
def routed (Message : CMessage) : Bool := (repliesTo { Message with sCommand := Message.sCommand.asUpper }).isSome

/-- whether a numeric is one of the replies to a request, and then whether it is the last one -/
def replyTo (req msg : CMessage) : Option Bool :=
  (repliesTo req).bind fun replies => ({ init with lastRequest := some req } : CRouteRepliesMod).isReply replies msg

/-- The module and its server: the requests that reached the server, oldest first, and the first one that it may still answer. -/
structure Net where
  mod : CRouteRepliesMod
  log : List Sent
  uNext : ℕ

inductive Event where
  | Call (op : Op)
  /-- the server answers the request `k`; `bLast` is whether it has no more to say to it -/
  | Reply (k : ℕ) (msg : CMessage) (bLast : Bool)

/-- whether there is a connected socket to the server -/
def Event.connected : Event → Bool
  | .Call (.OnUserRawMessage bConnected _ _) => bConnected
  | _ => true

/-- the request that reaches the server -/
def Effect.sent? (bConnected : Bool) : Effect → Option Sent
  | .PutIRC pClient req => some ⟨pClient, req.msg, some req.uId, false⟩
  | .ContinueUser pClient msg => if bConnected && routed msg then some ⟨pClient, msg, none, false⟩ else none
  | _ => none

/-- an event with its effects -/
structure Hop where
  before : Net
  event : Event
  effects : List Effect
  after : Net

namespace Net

def init : Net := ⟨.init, [], 0⟩

/-- the requests that an event ends -/
def ended (s : Net) : Event → List Sent
  | .Call (.RunJob _ _) => s.log.map fun e =>
      { e with bOver := e.bOver || s.mod.sent.head?.any fun r => e.uId = some r.1 }
  | .Call (.OnClientDisconnect pClient) => s.log.map fun e => { e with bOver := e.bOver || e.pClient = pClient }
  | .Call .OnIRCConnected => s.log.map fun e => { e with bOver := true }
  | .Call .OnIRCDisconnected => s.log.map fun e => { e with bOver := true }
  | .Call _ => s.log
  | .Reply k _ bLast => s.log.modify k fun e => { e with bOver := e.bOver || bLast }

def applyMod (s : Net) : Event → Option (CRouteRepliesMod × List Effect)
  | .Call op => s.mod.apply op
  | .Reply k msg _ => if s.uNext ≤ k ∧ k < s.log.length then some (s.mod.onRawMessage msg) else none

def nextOf (s : Net) : Event → ℕ
  | .Call _ => s.uNext
  | .Reply k _ bLast => if bLast then k + 1 else k

def apply (s : Net) (event : Event) : Option (Net × List Effect) :=
  (s.applyMod event).map fun r =>
    (⟨r.1, s.ended event ++ r.2.filterMap (Effect.sent? event.connected), s.nextOf event⟩, r.2)

def hops (s : Net) : List Event → Option (List Hop)
  | [] => some []
  | event :: events => (s.apply event).bind fun r => (r.1.hops events).map (⟨s, event, r.2, r.1⟩ :: ·)

/-- The command of a request is spelled as in the table. A reply comes before its request is over, is one of its replies, and is marked
as the last one when it is. No other message of the server looks like a reply that is waited for. -/
def fine (s : Net) : Event → Bool
  | .Call (.OnUserRawMessage bConnected _ Message) => bConnected && routed Message → (repliesTo Message).isSome
  | .Call (.OnRawMessage msg) => (s.mod.pReplies.bind fun replies => s.mod.isReply replies msg) = none
  | .Call _ => true
  | .Reply k msg bLast => (s.log[k]?).all fun e => !e.bOver && replyTo e.msg msg = some bLast

end Net

/-- when a request reaches the server, those of other clients are over -/
def Alone (before after : List Sent) : Prop :=
  ∀ old e rest, after = old ++ e :: rest → before.length ≤ old.length →
    ∀ e' ∈ old, e'.pClient ≠ e.pClient → e'.bOver = true

/-- what is asked of an event -/
structure Hop.Isolated (t : Hop) : Prop where
  /-- a reply goes to the client of its request, and to no other -/
  reply : ∀ k msg bLast e, t.event = .Reply k msg bLast → t.before.log[k]? = some e →
    .PutClient e.pClient msg ∈ t.effects ∧ .ContinueRaw msg ∉ t.effects ∧
      ∀ pClient msg', .PutClient pClient msg' ∈ t.effects → pClient = e.pClient
  alone : Alone t.before.log t.after.log

/-! ## Invariant -/

namespace Net

variable {s : Net}

/-- the requests that wait are sent with the replies of their table -/
def Tabled (m : CRouteRepliesMod) : Prop := ∀ c, ∀ req ∈ m.pendingOf c, repliesTo req.msg = some req.reply

/-- with the module in the state `m`, the requests are over but for the one it waits for, which is the last one -/
def Waits (m : CRouteRepliesMod) (log : List Sent) : Prop :=
  m.pDoing = none ∧ (∀ e ∈ log, e.bOver = true) ∨
  ∃ old e, log = old ++ [e] ∧ (∀ e' ∈ old, e'.bOver = true) ∧ m.pDoing = some e.pClient ∧ m.lastRequest = some e.msg ∧
    m.pReplies = repliesTo e.msg ∧ m.sent.head?.map Prod.fst = e.uId ∧ e.uId.isSome ∧ e.bOver = false

structure Inv (s : Net) : Prop where
  mod : s.mod.Inv
  tabled : Tabled s.mod
  waits : Waits s.mod s.log

theorem init_inv : init.Inv := ⟨CRouteRepliesMod.init_inv,
    fun _ _ hm => by simp [init, pendingOf, CRouteRepliesMod.init] at hm, .inl ⟨rfl, by simp [init]⟩⟩

variable {m : CRouteRepliesMod}

/-- **`SendRequest` and the log:** a request is sent only when all are over. -/
theorem sendRequest_waits {log : List Sent} (hcore : m.Core) (htabled : Tabled m) (hwaits : Waits m log)
    (bConnected : Bool) :
    Tabled m.sendRequest.1 ∧ Waits m.sendRequest.1 (log ++ m.sendRequest.2.filterMap (Effect.sent? bConnected)) ∧
      (m.sendRequest.2 = [] ∨ ∃ c req, m.sendRequest.2 = [.PutIRC c req] ∧ ∀ e ∈ log, e.bOver = true) := by
  rcases sendRequest_cases hcore with ⟨-, heq⟩ | ⟨hdoing, p, heq, hp⟩ | ⟨hdoing, p, c, req, reqs, hc, heq, hp⟩
  · rw [heq]
    exact ⟨htabled, by simpa using hwaits, .inl rfl⟩
  · rw [heq, filterMap_nil, append_nil]
    exact ⟨fun c req hm => absurd ((hp c).1 ▸ hm) (by simp), hwaits, .inl rfl⟩
  · have hover : ∀ e ∈ log, e.bOver = true := by
      rcases hwaits with ⟨-, hover⟩ | ⟨old, e, -, -, hsome, -⟩
      · exact hover
      · rw [hdoing] at hsome
        cases hsome
    rw [heq]
    refine ⟨fun c' req' hm => ?_,
      .inr ⟨log, ⟨c, req.msg, some req.uId, false⟩, by simp [Effect.sent?], hover, rfl, rfl, ?_, rfl, rfl, rfl⟩,
      .inr ⟨c, req, rfl, hover⟩⟩
    · have hpend := hp c'
      unfold pendingOf at hpend hm
      rw [hpend] at hm
      split_ifs at hm with hcc
      · exact htabled c req' (hc ▸ mem_cons_of_mem _ hm)
      · exact htabled c' req' hm
    · exact (htabled c req (hc ▸ mem_cons_self ..)).symm

theorem length_ended (s : Net) (event : Event) : (s.ended event).length = s.log.length := by
  unfold ended
  split <;> simp

theorem alone_of {log old new : List Sent} (hlength : old.length = log.length)
    (hnew : new = [] ∨ ∃ e, new = [e] ∧ ∀ e' ∈ old, e'.bOver = true) : Alone log (old ++ new) := by
  intro l e rest hl hle e' he' _
  have hlen := congrArg List.length hl
  rcases hnew with rfl | ⟨x, rfl, hover⟩
  · simp only [append_nil, length_append, length_cons] at hlen
    omega
  · simp only [length_append, length_cons, length_nil] at hlen
    have hold : old = l := (append_inj hl (by omega)).1
    exact hover e' (hold ▸ he')

theorem settled (event : Event) (pre : List Effect) (hcore : m.Core) (htabled : Tabled m)
    (hwaits : Waits m (s.ended event)) (hpre : pre.filterMap (Effect.sent? event.connected) = []) :
    ({ mod := m.sendRequest.1
       log := s.ended event ++ (pre ++ m.sendRequest.2).filterMap (Effect.sent? event.connected)
       uNext := s.nextOf event } : Net) |> fun after => after.Inv ∧ Alone s.log after.log := by
  obtain ⟨htabled', hwaits', hsent⟩ := sendRequest_waits hcore htabled hwaits event.connected
  rw [filterMap_append, hpre, nil_append]
  refine ⟨⟨(sendRequest_sends hcore).inv, htabled', hwaits'⟩, alone_of (s.length_ended event) ?_⟩
  rcases hsent with hnil | ⟨c, req, hput, hover⟩
  · exact .inl (by rw [hnil]; rfl)
  · exact .inr ⟨⟨c, req.msg, some req.uId, false⟩, by rw [hput]; rfl, hover⟩

theorem unsent (event : Event) (effects : List Effect) (hinv : m.Inv) (htabled : Tabled m)
    (hwaits : Waits m (s.ended event)) (hnone : effects.filterMap (Effect.sent? event.connected) = []) :
    ({ mod := m, log := s.ended event ++ effects.filterMap (Effect.sent? event.connected),
       uNext := s.nextOf event } : Net) |>
      fun after => after.Inv ∧ Alone s.log after.log := by
  rw [hnone]
  exact ⟨⟨hinv, htabled, (append_nil _).symm ▸ hwaits⟩, alone_of (s.length_ended event) (.inl rfl)⟩

theorem call_isolated {op : Op} {effects : List Effect} {after : Net} (h : after.Inv ∧ Alone s.log after.log) :
    after.Inv ∧ (Hop.mk s (.Call op) effects after).Isolated :=
  ⟨h.1, fun _ _ _ _ hevent => by simp at hevent, h.2⟩

theorem onUserRawMessage_isolated (h : s.Inv) {bConnected : Bool} {c : ℕ} {Message : CMessage}
    (hfine : s.fine (.Call (.OnUserRawMessage bConnected c Message)) = true) {r : CRouteRepliesMod × List Effect}
    (hr : s.mod.onUserRawMessage bConnected c Message = r) :
    ({ mod := r.1
       log := s.log ++ r.2.filterMap (Effect.sent? bConnected)
       uNext := s.uNext } : Net) |> fun after => after.Inv ∧ Alone s.log after.log := by
  unfold onUserRawMessage at hr
  split at hr
  next vReplies hreplies =>
    obtain ⟨hcore, hpending⟩ := h.mod.queued c Message vReplies
    have htabled : Tabled { s.mod with
        vsPending := s.mod.vsPending.insert c
          ((s.mod.vsPending.find c).getD [] ++ [Request.mk s.mod.uRequests Message vReplies])
        uRequests := s.mod.uRequests + 1 } := by
      intro c' req hm
      rw [hpending] at hm
      split_ifs at hm with hcc
      · rcases mem_append.1 hm with hm | hm
        · exact h.tabled c req hm
        · rw [mem_singleton.1 hm]
          split_ifs at hreplies
          exact hreplies
      · exact h.tabled c' req hm
    rw [← hr]
    exact settled (.Call (.OnUserRawMessage bConnected c Message)) [] hcore htabled h.waits rfl
  next hreplies =>
    rw [← hr]
    refine unsent (.Call (.OnUserRawMessage bConnected c Message)) [.ContinueUser c Message] h.mod h.tabled h.waits ?_
    have hcond : ¬(bConnected && routed Message) = true := by
      intro hb
      have hsome := of_decide_eq_true hfine hb
      rw [Bool.and_eq_true] at hb
      rw [if_pos hb.1] at hreplies
      simp [hreplies] at hsome
    simp only [filterMap_cons, Effect.sent?, Event.connected, if_neg hcond, filterMap_nil]

theorem Waits.free {log : List Sent} (hdoing : m.pDoing = none) (hover : ∀ e ∈ log, e.bOver = true) : Waits m log :=
  .inl ⟨hdoing, hover⟩

theorem runJob_isolated (h : s.Inv) {t : ℕ} (ht : t ∈ s.mod.running) (bSilent : Bool) :
    (({ s.mod with running := s.mod.running.filter (· ≠ t) } : CRouteRepliesMod).timeout bSilent) |> fun r =>
      ({ mod := r.1
         log := s.ended (.Call (.RunJob t bSilent)) ++ r.2.filterMap (Effect.sent? true)
         uNext := s.uNext } : Net) |> fun after => after.Inv ∧ Alone s.log after.log := by
  obtain ⟨hdoing, hcore⟩ := h.mod.timedOut ht
  refine settled (.Call (.RunJob t bSilent)) _ hcore h.tabled (.free rfl fun e he => ?_) ?_
  · rcases h.waits with ⟨hnone, -⟩ | ⟨old, last, hlog, hold, -, -, -, hhead, hsome, -⟩
    · exact absurd hnone hdoing
    · -- the request that the module waits for is the one it sent last
      obtain ⟨e', he', rfl⟩ := mem_map.1 he
      rw [hlog] at he'
      rcases mem_append.1 he' with he' | he'
      · simp [hold e' he']
      · rw [mem_singleton.1 he']
        obtain ⟨i, hi⟩ := Option.isSome_iff_exists.1 hsome
        rw [hi] at hhead
        obtain ⟨r, hr, hri⟩ := Option.map_eq_some_iff.1 hhead
        simp [hr, hi, hri]
  · cases bSilent
    · cases s.mod.pReplies <;> simp [Effect.sent?]
    · rfl

theorem onClientDisconnect_isolated (h : s.Inv) (c : ℕ) :
    ({ mod := (s.mod.onClientDisconnect c).1
       log := s.ended (.Call (.OnClientDisconnect c)) ++ (s.mod.onClientDisconnect c).2.filterMap (Effect.sent? true)
       uNext := s.uNext } : Net) |> fun after => after.Inv ∧ Alone s.log after.log := by
  obtain ⟨-, hcore, hpending⟩ := h.mod.left c
  refine settled (.Call (.OnClientDisconnect c)) [] hcore (fun c' req hm => ?_) ?_ rfl
  · rw [hpending] at hm
    split_ifs at hm
    · cases hm
    · exact h.tabled c' req hm
  · have hover : ∀ e : Sent, e.bOver = true →
      ({ e with bOver := e.bOver || e.pClient = c } : Sent).bOver = true := fun e he => by simp [he]
    rcases h.waits with ⟨hnone, hall⟩ | ⟨old, last, hlog, hold, hdoing, hlast, hreplies, hhead, hsome, hopen⟩
    · refine .free ?_ fun e he => ?_
      · rw [if_neg (by simp [hnone])]
        exact hnone
      · obtain ⟨e', he', rfl⟩ := mem_map.1 he
        exact hover e' (hall e' he')
    · have hended : s.ended (.Call (.OnClientDisconnect c)) =
          old.map (fun e => { e with bOver := e.bOver || e.pClient = c }) ++
            [{ last with bOver := last.bOver || last.pClient = c }] := by
        rw [ended, hlog, map_append, map_singleton]
      have hold' : ∀ e' ∈ old.map (fun e : Sent => { e with bOver := e.bOver || e.pClient = c }), e'.bOver = true := by
        intro e he
        obtain ⟨e', he', rfl⟩ := mem_map.1 he
        exact hover e' (hold e' he')
      rw [hended]
      by_cases hc : last.pClient = c
      · refine .free (by simp [hdoing, hc, clear]) fun e he => ?_
        rcases mem_append.1 he with he | he
        · exact hold' e he
        · rw [mem_singleton.1 he]
          simp [hc]
      · refine .inr ⟨_, _, rfl, hold', ?_⟩
        rw [if_neg (by simp [hdoing, hc])]
        exact ⟨hdoing, hlast, hreplies, hhead, hsome, by simp [hopen, hc]⟩

theorem onIRCConnected_isolated (h : s.Inv) {op : Op} (hop : op = .OnIRCConnected ∨ op = .OnIRCDisconnected) :
    ({ mod := s.mod.onIRCConnected
       log := s.ended (.Call op) ++ [].filterMap (Effect.sent? (Event.Call op).connected)
       uNext := s.uNext } : Net) |> fun after => after.Inv ∧ Alone s.log after.log := by
  refine unsent (.Call op) [] (onIRCConnected_sound h.mod hop).1 (fun c req hm => ?_)
    (.free s.mod.onIRCConnected_pDoing fun e he => ?_) rfl
  · rw [onIRCConnected_pending] at hm
    cases hm
  · rcases hop with rfl | rfl
    · obtain ⟨e', -, rfl⟩ := mem_map.1 he
      rfl
    · obtain ⟨e', -, rfl⟩ := mem_map.1 he
      rfl

theorem answered (h : s.Inv) {k : ℕ} {msg : CMessage} {bLast : Bool} (hk : k < s.log.length)
    (hfine : s.fine (.Reply k msg bLast) = true) :
    ∃ old e, s.log = old ++ [e] ∧ k = old.length ∧ (∀ e' ∈ old, e'.bOver = true) ∧ s.mod.pDoing = some e.pClient ∧
      (s.mod.pReplies.bind fun replies => s.mod.isReply replies msg) = some bLast ∧ e.bOver = false := by
  have hlog : s.log[k]? = some s.log[k] := getElem?_eq_getElem hk
  simp only [fine, hlog, Option.all_some, Bool.and_eq_true, Bool.not_eq_true', decide_eq_true_eq] at hfine
  obtain ⟨hopen, hreply⟩ := hfine
  rcases h.waits with ⟨-, hover⟩ | ⟨old, e, heq, hold, hdoing, hlast, hreplies, -⟩
  · exact absurd (hover _ (getElem_mem hk)) (by simp [hopen])
  · rcases Nat.lt_or_ge k old.length with hlt | hge
    · have hmem : s.log[k] ∈ old := by
        simp only [heq, getElem_append_left hlt]
        exact getElem_mem hlt
      exact absurd (hold _ hmem) (by simp [hopen])
    · have hlen : s.log.length = old.length + 1 := by rw [heq]; simp
      have hkold : k = old.length := by omega
      have he : s.log[k] = e := by simp [heq, hkold]
      rw [he] at hreply hopen
      refine ⟨old, e, heq, hkold, hold, hdoing, ?_, hopen⟩
      rw [← hreply, hreplies, replyTo]
      simp only [isReply, hlast]

theorem reply_isolated (h : s.Inv) {k : ℕ} {msg : CMessage} {bLast : Bool} (hk : k < s.log.length)
    (hfine : s.fine (.Reply k msg bLast) = true) {r : Net × List Effect}
    (hr : r = (⟨(s.mod.onRawMessage msg).1,
      s.ended (.Reply k msg bLast) ++ (s.mod.onRawMessage msg).2.filterMap (Effect.sent? true),
      s.nextOf (.Reply k msg bLast)⟩, (s.mod.onRawMessage msg).2)) :
    r.1.Inv ∧ (Hop.mk s (.Reply k msg bLast) r.2 r.1).Isolated := by
  obtain ⟨old, e, heq, hkold, hold, hdoing, hreply, hopen⟩ := answered h hk hfine
  have hat : ∀ e', s.log[k]? = some e' → e = e' := fun e' he' => by
    simpa [heq, hkold] using he'
  have hraw : s.mod.onRawMessage msg = s.mod.routeReply msg bLast := by rw [onRawMessage, hreply]
  have hended : s.ended (.Reply k msg bLast) = old ++ [{ e with bOver := bLast }] := by
    rw [ended, heq, hkold, modify_eq_take_drop, take_left, drop_left]
    simp [hopen]
  rw [hraw, routeReply, hdoing] at hr
  cases bLast with
  | false =>
    have hwaits : Waits s.mod (s.ended (.Reply k msg false)) := by
      rw [hended, ← hopen]
      exact heq ▸ h.waits
    have hafter := unsent (.Reply k msg false) [.PutClient e.pClient msg] h.mod h.tabled hwaits rfl
    rw [hr]
    refine ⟨hafter.1, fun k' msg' bLast' e' hevent he' => ?_, hafter.2⟩
    injection hevent with hk' hmsg hlast
    subst hk' hmsg
    rw [← hat e' he']
    simp
  | true =>
    have hover : ∀ e' ∈ s.ended (.Reply k msg true), e'.bOver = true := by
      intro e' he'
      rw [hended] at he'
      rcases mem_append.1 he' with he' | he'
      · exact hold e' he'
      · rw [mem_singleton.1 he']
    have htabled : Tabled s.mod.remTimer.clear := fun c req hm => h.tabled c req (by simpa [pendingOf, clear] using hm)
    have hafter := settled (.Reply k msg true) [.PutClient e.pClient msg] h.mod.released htabled (.free rfl hover) rfl
    obtain ⟨-, -, hsent⟩ := sendRequest_waits h.mod.released htabled (.free rfl hover) true
    rw [hr]
    refine ⟨hafter.1, fun k' msg' bLast' e' hevent he' => ?_, hafter.2⟩
    injection hevent with hk' hmsg hlast
    subst hk' hmsg
    rw [← hat e' he']
    rcases hsent with hsent | ⟨c, req, hsent, -⟩ <;> simp [hsent]

/-- **One event** keeps the invariant and is isolated. -/
theorem apply_isolated (h : s.Inv) {event : Event} (hfine : s.fine event = true) {r : Net × List Effect}
    (hr : s.apply event = some r) : r.1.Inv ∧ (Hop.mk s event r.2 r.1).Isolated := by
  obtain ⟨m, hmod, rfl⟩ := Option.map_eq_some_iff.1 hr
  cases event with
  | Reply k msg bLast =>
    simp only [applyMod] at hmod
    split_ifs at hmod with hk
    cases hmod
    exact reply_isolated h hk.2 hfine rfl
  | Call op =>
    have hmodInv : m.1.Inv := (apply_sound h.mod hmod).1
    refine call_isolated ?_
    cases op with
    | OnUserRawMessage bConnected c Message =>
      cases hmod
      exact onUserRawMessage_isolated h hfine rfl
    | OnRawMessage msg =>
      have hnone := of_decide_eq_true hfine
      simp only [applyMod, CRouteRepliesMod.apply, onRawMessage, hnone, Option.some.injEq] at hmod
      cases hmod
      exact unsent (.Call (.OnRawMessage msg)) [.ContinueRaw msg] h.mod h.tabled h.waits rfl
    | RunJob t bSilent =>
      simp only [applyMod, CRouteRepliesMod.apply] at hmod
      split_ifs at hmod with ht
      cases hmod
      exact runJob_isolated h ht bSilent
    | DeleteTimer t =>
      simp only [applyMod, CRouteRepliesMod.apply] at hmod
      split_ifs at hmod with ht
      cases hmod
      exact unsent (.Call (.DeleteTimer t)) [] hmodInv h.tabled h.waits rfl
    | OnClientDisconnect c =>
      cases hmod
      exact onClientDisconnect_isolated h c
    | OnIRCConnected =>
      cases hmod
      exact onIRCConnected_isolated h (.inl rfl)
    | OnIRCDisconnected =>
      cases hmod
      exact onIRCConnected_isolated h (.inr rfl)

theorem hops_isolated {events : List Event} : ∀ {s : Net}, s.Inv → ∀ {l}, s.hops events = some l →
    (∀ t ∈ l, t.before.fine t.event = true) → ∀ t ∈ l, t.Isolated := by
  induction events with
  | nil =>
    intro s _ l hl _ t ht
    simp only [hops, Option.some.injEq] at hl
    rw [← hl] at ht
    cases ht
  | cons event events ih =>
    intro s h l hl hfine t ht
    rw [hops, Option.bind_eq_some_iff] at hl
    obtain ⟨r, hr, hl⟩ := hl
    obtain ⟨l', hl', rfl⟩ := Option.map_eq_some_iff.1 hl
    obtain ⟨hinv, hisolated⟩ := apply_isolated h (hfine _ (mem_cons_self ..)) hr
    rcases mem_cons.1 ht with rfl | ht
    · exact hisolated
    · exact ih hinv hl' (fun t' ht' => hfine t' (mem_cons_of_mem _ ht')) t ht

/-- **Replies and requests are isolated** in every run of fine events. -/
theorem isolated {events : List Event} {l : List Hop} (hl : init.hops events = some l)
    (hfine : ∀ t ∈ l, t.before.fine t.event = true) : ∀ t ∈ l, t.Isolated :=
  hops_isolated init_inv hl hfine

/-- two clients ask, the server answers one request after the other, and the third request is given up -/
def exchange : List Event := [
  .Call (.OnUserRawMessage true 0 (command (lit "WHO") (lit "#a"))),
  .Call (.OnUserRawMessage true 1 (command (lit "WHOIS") (lit "n"))),
  .Reply 0 (command (lit "352") (lit "n")) false,
  .Call (.OnUserRawMessage true 1 (command (lit "TIME") (lit "x"))),
  .Reply 0 (command (lit "315") (lit "n")) true,
  .Reply 1 (command (lit "318") (lit "n")) true,
  .Call (.RunJob 2 false),
  .Call (.OnClientDisconnect 1)]

theorem isolated_exchange :
    (init.hops exchange).isSome = true ∧ ∀ l, init.hops exchange = some l → ∀ t ∈ l, t.Isolated := by
  refine ⟨by decide, fun l hl => isolated hl ?_⟩
  have hfine : (init.hops exchange).all (fun l => l.all fun t => t.before.fine t.event) = true := by decide
  rw [hl, Option.all_some, all_eq_true] at hfine
  exact hfine

/-- A reply to "who #a" of the client 0 goes to the client 1, whose request is outstanding. And "who #b" of the client 1 is sent beside
the outstanding request of the client 0. -/
theorem not_isolated :
    (∃ l t, init.hops [.Call (.OnUserRawMessage true 0 (command (lit "who") (lit "#a"))),
        .Call (.OnUserRawMessage true 1 (command (lit "WHO") (lit "#b"))),
        .Reply 0 (command (lit "352") (lit "n")) false] = some l ∧ t ∈ l ∧
      t.effects = [.PutClient 1 (command (lit "352") (lit "n"))] ∧ ¬t.Isolated) ∧
    ∃ l t, init.hops [.Call (.OnUserRawMessage true 0 (command (lit "WHO") (lit "#a"))),
        .Call (.OnUserRawMessage true 1 (command (lit "who") (lit "#b")))] = some l ∧ t ∈ l ∧
      t.before.mod.pDoing = some 0 ∧ ¬t.Isolated := by
  refine ⟨⟨_, _, rfl, mem_cons_of_mem _ (mem_cons_of_mem _ (mem_cons_self ..)), by
    decide, fun h => ?_⟩,
    ⟨_, _, rfl, mem_cons_of_mem _ (mem_cons_self ..), by decide, fun h => ?_⟩⟩
  · have hreply := (h.reply 0 _ false ⟨0, command (lit "who") (lit "#a"), none, false⟩ rfl (by decide)).1
    exact absurd hreply (by decide)
  · have halone := h.alone [⟨0, command (lit "WHO") (lit "#a"), some 0, false⟩]
      ⟨1, command (lit "who") (lit "#b"), none, false⟩ []
      (by decide) (by decide)
    exact absurd (halone _ (mem_cons_self ..) (by decide)) (by decide)

end Net

end RouteReplies

end ZNC
