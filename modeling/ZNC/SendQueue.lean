/-
The queue of messages to the IRC server: `PutIRC`, `PutIRCQuick`, `TrySend` and `PutIRCRaw` of `src/IRCSock.cpp`, and the
flood timer.

`TrySend` reads the front of the queue, calls the hook `OnSendToIRCMessage` with it, passes its line to `PutIRCRaw`, which calls
the hook `OnSendToIRC` and writes it, and takes the front away. A module may put messages from inside both hooks, and so enter
`TrySend` again while the message is still at the front.

Model: a hook is open between two steps: `trySend` runs until it calls `OnSendToIRCMessage`, `returned` goes on behind that call,
until `PutIRCRaw` calls `OnSendToIRC`, and `returnedRaw` behind this one. `calls` are the open calls, innermost first. `log` is
the history of the run, newest first. Messages are told apart by numbers. After a call that comes back for a message that is gone
the program reads freed memory; the model stops there.

Results:
- `exec_inv`: what each step keeps, if it meets `StepOk`;
- `send_exact`: in every run whose steps meet `StepOk` each message is handed to the hook once and written once if it passes;
- `send_twice`: a message that is put to the front from inside the hook is lost, and the message of the hook written twice.
-/
import ZNC.Message
import ZNC.Lib.Journal
import ZNC.Lib.QueueLog

namespace ZNC

open CString Journal QueueLog List

/-! ## Model -/

/-- the conversion to `short int` -/
def short (n : ℤ) : ℤ := n.bmod (2 ^ 16)

/-- what happens to the message with a number; a message is queued when it is put -/
inductive SendEvent where
  | queued (i : ℕ)
  | queuedFront (i : ℕ)
  | hooked (i : ℕ)
  | skipped (i : ℕ)
  | passed (i : ℕ)
  | stopped (i : ℕ)
  | wrote (i : ℕ) (sLine : Option CString)
  | removed (i : ℕ)
  | tick
deriving DecidableEq

/-- the hooks for one message; the second one gets the line -/
inductive EHook where
  | OnSendToIRCMessage
  | OnSendToIRC (sLine : Option CString)

/-- the part of a `CIRCSock` that sends -/
structure SendQueue where
  vSendQueue : List (ℕ × CMessage)
  iSendsAllowed : ℤ
  uFloodBurst : UInt16
  bFloodProtection : Bool
  bMessageTagCap : Bool
  ssSupportedTags : SCString
  /-- the open calls of the hooks, with their messages -/
  calls : List (ℕ × EHook)
  /-- the number of the next message -/
  uNext : ℕ
  /-- a call came back for a message that is gone -/
  bDangling : Bool
  log : List SendEvent

namespace SendQueue

/-- the numbers of the queued messages -/
def ids (s : SendQueue) : List ℕ := s.vSendQueue.map Prod.fst

/-- a new connection -/
def initial (uFloodBurst : UInt16) (bFloodProtection : Bool) : SendQueue where
  vSendQueue := []
  iSendsAllowed := short uFloodBurst.toNat
  uFloodBurst := uFloodBurst
  bFloodProtection := bFloodProtection
  bMessageTagCap := false
  ssSupportedTags := .empty
  calls := []
  uNext := 0
  bDangling := false
  log := []

/-- the message without the tags that the server does not take -/
def filterTags (s : SendQueue) (Message : CMessage) : CMessage :=
  if s.bMessageTagCap then Message
  else { Message with mssTags := .ofList (Message.mssTags.entries.filter fun it => it.1 ∈ s.ssSupportedTags) }

/-- `TrySend()` as far as the next call of the hook, or to its end -/
def trySend (s : SendQueue) : SendQueue :=
  match s.vSendQueue with
  | [] => s
  | (i, Message) :: vSendQueue =>
    if !s.bFloodProtection || 0 < s.iSendsAllowed then
      { s with
        iSendsAllowed := short (s.iSendsAllowed - 1)
        vSendQueue := (i, s.filterTags Message) :: vSendQueue
        calls := (i, .OnSendToIRCMessage) :: s.calls
        log := .hooked i :: s.log }
    else s

def pushBack (s : SendQueue) (Message : CMessage) : SendQueue :=
  { s with
    vSendQueue := s.vSendQueue ++ [(s.uNext, Message)]
    uNext := s.uNext + 1
    log := .queued s.uNext :: s.log }

def emplaceFront (s : SendQueue) (Message : CMessage) : SendQueue :=
  { s with
    vSendQueue := (s.uNext, Message) :: s.vSendQueue
    uNext := s.uNext + 1
    log := .queuedFront s.uNext :: s.log }

def popFront (s : SendQueue) : SendQueue :=
  match s.vSendQueue with
  | [] => s
  | (i, _) :: vSendQueue => { s with vSendQueue := vSendQueue, log := .removed i :: s.log }

def putIRC (s : SendQueue) (Message : CMessage) : SendQueue := (s.pushBack Message).trySend

/-- `PutIRCQuick(sLine)`, for the message that is read from the line -/
def putIRCQuick (s : SendQueue) (Message : CMessage) : SendQueue := (s.emplaceFront Message).trySend

/-- the flood timer allows one more -/
def allowOne (s : SendQueue) : SendQueue :=
  { s with
    iSendsAllowed := if s.iSendsAllowed < s.uFloodBurst.toNat then short (s.iSendsAllowed + 1) else s.iSendsAllowed
    log := .tick :: s.log }

/-- `RunJob()` of the flood timer, which is there only with flood protection and does not run inside a hook -/
def runJob (s : SendQueue) : SendQueue := if s.bFloodProtection && s.calls.isEmpty then s.allowOne.trySend else s

/-- the hook has changed the message `i` -/
def setMessage (s : SendQueue) (i : ℕ) (Message : CMessage) : SendQueue :=
  { s with vSendQueue := s.vSendQueue.map fun (e : ℕ × CMessage) => if e.1 = i then (i, Message) else e }

/-- the innermost call is the last one for its message, to which `e` happens: the rest of the loop of `TrySend()` -/
def finished (s : SendQueue) (e : SendEvent) : SendQueue :=
  if s.vSendQueue = [] then { s with bDangling := true }
  else { s with calls := s.calls.tail, log := e :: s.log }.popFront.trySend

/-- `OnSendToIRCMessage` comes back from the innermost call, and the line goes to `PutIRCRaw()` -/
def returned (s : SendQueue) (bSkip : Bool) (Message : CMessage) : SendQueue :=
  match s.calls with
  | (i, .OnSendToIRCMessage) :: calls =>
    -- a message that is gone can still be skipped, then some other one is taken away
    if bSkip then (s.setMessage i Message).finished (.skipped i)
    else if i ∈ s.ids then
      { s.setMessage i Message with
        calls := (i, .OnSendToIRC (Message.toString CMessage.IncludeAll)) :: calls
        log := .passed i :: s.log }
    else { s with bDangling := true }
  | _ => s

/-- `OnSendToIRC` comes back from the innermost call, with the line that it makes of its own -/
def returnedRaw (s : SendQueue) (bSkip : Bool) (onLine : CString → CString) : SendQueue :=
  match s.calls with
  | (i, .OnSendToIRC sLine) :: _ => s.finished (if bSkip then .stopped i else .wrote i (sLine.map onLine))
  | _ => s

/-- what happens: messages are put (from inside a hook while one is open), the timer runs, a call of the hook comes back -/
inductive SendAct where
  | putIRC (Message : CMessage)
  | putIRCQuick (Message : CMessage)
  | runJob
  | returned (bSkip : Bool) (Message : CMessage)
  | returnedRaw (bSkip : Bool) (onLine : CString → CString)
  | caps (bMessageTagCap : Bool) (ssSupportedTags : SCString)

def exec (s : SendQueue) (a : SendAct) : SendQueue :=
  if s.bDangling then s
  else
    match a with
    | .putIRC Message => s.putIRC Message
    | .putIRCQuick Message => s.putIRCQuick Message
    | .runJob => s.runJob
    | .returned bSkip Message => s.returned bSkip Message
    | .returnedRaw bSkip onLine => s.returnedRaw bSkip onLine
    | .caps bMessageTagCap ssSupportedTags =>
        { s with bMessageTagCap := bMessageTagCap, ssSupportedTags := ssSupportedTags }

/-! ## What the history says -/

/-- the queue of the messages that the hook has not seen -/
def hookOp : SendEvent → Op ℕ
  | .queued i => .back i
  | .queuedFront i => .front i
  | .hooked i => .take i
  | _ => .idle

/-- the queue of the messages that have not been taken away -/
def removeOp : SendEvent → Op ℕ
  | .queued i => .back i
  | .queuedFront i => .front i
  | .removed i => .take i
  | _ => .idle

/-- the messages that the hook has let pass or skipped -/
def verdictOf : SendEvent → List ℕ
  | .skipped i => [i]
  | .passed i => [i]
  | _ => []

def passedOf : SendEvent → List ℕ
  | .passed i => [i]
  | _ => []

def wroteOf : SendEvent → List ℕ
  | .wrote i _ => [i]
  | _ => []

/-- the messages that the loop is done with -/
def doneOf : SendEvent → List ℕ
  | .skipped i => [i]
  | .wrote i _ => [i]
  | _ => []

/-- the open calls of `PutIRCRaw()` -/
def rawOf : ℕ × EHook → List ℕ
  | (i, .OnSendToIRC _) => [i]
  | _ => []

/-- each message goes through the queue once -/
structure Exact (s : SendQueue) : Prop where
  defined : s.bDangling = false
  /-- no two messages have one number -/
  distinct : (added hookOp s.log).Nodup
  /-- the hook gets the messages in the order of the queue, each once; the others wait behind them -/
  hooked : ∃ waiting, replay hookOp s.log = some waiting ∧ waiting <:+ s.ids ∧
    (taken hookOp s.log ++ waiting).Perm (added hookOp s.log)
  /-- they are taken away in the order of the queue, and stand in it until then -/
  removed : replay removeOp s.log = some s.ids
  /-- those that are taken away are those that were skipped or written -/
  processed : taken removeOp s.log = s.log.flatMap doneOf
  verdicts : ∀ i ∈ s.log.flatMap verdictOf, i ∈ taken hookOp s.log
  /-- those that pass are written, each once, when `PutIRCRaw()` is through with them -/
  written : (s.calls.flatMap rawOf ++ s.log.flatMap wroteOf).Perm (s.log.flatMap passedOf)
  once : (s.log.flatMap wroteOf).Nodup

/-- from inside a hook, messages are put at the end only if nothing may be sent, and to the front only if they are sent at once
and nothing more may be sent behind them; `OnSendToIRC` stops no line -/
def StepOk (s : SendQueue) : SendAct → Prop
  | .putIRC _ => s.calls ≠ [] → s.bFloodProtection = true ∧ s.iSendsAllowed ≤ 0
  | .putIRCQuick _ => s.calls ≠ [] → s.bFloodProtection = true ∧ 0 < s.iSendsAllowed
  | .returned bSkip _ => bSkip = true → 2 ≤ s.calls.length → s.iSendsAllowed ≤ 0
  | .returnedRaw bSkip _ => bSkip = false ∧ (2 ≤ s.calls.length → s.iSendsAllowed ≤ 0)
  | _ => True

instance (s : SendQueue) (a : SendAct) : Decidable (s.StepOk a) := by
  cases a <;> (unfold StepOk; infer_instance)

/-! ## Invariant -/

/-- the messages of the open calls -/
def callIds (s : SendQueue) : List ℕ := s.calls.map Prod.fst

/-- what the history knows of the queue -/
structure LogInv (s : SendQueue) : Prop where
  defined : s.bDangling = false
  distinct : (added hookOp s.log).Nodup
  fresh : ∀ i ∈ added hookOp s.log, i < s.uNext
  removed : replay removeOp s.log = some s.ids
  processed : taken removeOp s.log = s.log.flatMap doneOf
  verdicts : ∀ i ∈ s.log.flatMap verdictOf, i ∈ taken hookOp s.log
  written : (s.calls.flatMap rawOf ++ s.log.flatMap wroteOf).Perm (s.log.flatMap passedOf)

/-- the open calls are for the messages at the front, and behind them stand those that wait -/
structure Inv (s : SendQueue) : Prop extends LogInv s where
  order : ∃ waiting, replay hookOp s.log = some waiting ∧ s.ids = s.callIds ++ waiting
  nested : 2 ≤ s.calls.length → s.bFloodProtection = true

theorem added_removeOp (log : List SendEvent) : added removeOp log = added hookOp log := by
  have hop : ∀ e : SendEvent, (removeOp e).added = (hookOp e).added := by
    intro e
    cases e <;> rfl
  unfold added
  exact flatMap_congr fun e _ => hop e

variable {s : SendQueue}

theorem Inv.exact (h : Inv s) : Exact s := by
  obtain ⟨waiting, hreplay, horder⟩ := h.order
  have hperm := replay_perm hreplay
  have hremoved := replay_perm h.removed
  rw [added_removeOp, h.processed] at hremoved
  have hdone : (s.log.flatMap doneOf).Nodup := (hremoved.nodup_iff.2 h.distinct).of_append_left
  have hwrote : (s.log.flatMap wroteOf).Sublist (s.log.flatMap doneOf) := by
    apply List.Sublist.flatMap_right
    intro e _
    cases e <;> simp [wroteOf, doneOf]
  exact ⟨h.defined, h.distinct, ⟨waiting, hreplay, ⟨s.callIds, horder.symm⟩, hperm⟩, h.removed, h.processed, h.verdicts,
    h.written, hdone.sublist hwrote⟩

/-- `TrySend` does nothing -/
def Blocked (s : SendQueue) : Prop := s.vSendQueue = [] ∨ s.bFloodProtection = true ∧ s.iSendsAllowed ≤ 0

theorem trySend_blocked (h : s.Blocked) : s.trySend = s := by
  unfold trySend
  cases hq : s.vSendQueue with
  | nil => rfl
  | cons e q =>
    rcases h with h | ⟨hflood, hallowed⟩
    · rw [hq] at h
      cases h
    · have hstop : ¬(!s.bFloodProtection || decide (0 < s.iSendsAllowed)) = true := by simp [hflood, hallowed]
      exact if_neg hstop

theorem trySend_open (h : ¬s.Blocked) : ∃ i Message q, s.vSendQueue = (i, Message) :: q ∧
    s.trySend = { s with
      iSendsAllowed := short (s.iSendsAllowed - 1)
      vSendQueue := (i, s.filterTags Message) :: q
      calls := (i, .OnSendToIRCMessage) :: s.calls
      log := .hooked i :: s.log } := by
  cases hq : s.vSendQueue with
  | nil => exact absurd (.inl hq) h
  | cons e q =>
    refine ⟨e.1, e.2, q, rfl, ?_⟩
    have hgo : (!s.bFloodProtection || decide (0 < s.iSendsAllowed)) = true := by
      cases hflood : s.bFloodProtection with
      | false => rfl
      | true =>
        have hpos : 0 < s.iSendsAllowed := by
          by_contra hno
          exact h (.inr ⟨hflood, not_lt.1 hno⟩)
        simp [hpos]
    unfold trySend
    rw [hq]
    exact if_pos hgo

theorem finished_cases (s : SendQueue) (e : SendEvent) :
    s.vSendQueue = [] ∧ s.finished e = { s with bDangling := true } ∨
      s.vSendQueue ≠ [] ∧ s.finished e = { s with calls := s.calls.tail, log := e :: s.log }.popFront.trySend := by
  unfold finished
  by_cases hempty : s.vSendQueue = []
  · exact .inl ⟨hempty, if_pos hempty⟩
  · exact .inr ⟨hempty, if_neg hempty⟩

@[simp] theorem ids_setMessage (s : SendQueue) (i : ℕ) (Message : CMessage) : (s.setMessage i Message).ids = s.ids := by
  rw [ids, setMessage, map_map]
  apply map_congr_left
  intro e _
  rw [Function.comp_apply]
  by_cases he : e.1 = i
  · rw [if_pos he, he]
  · rw [if_neg he]

theorem returned_cases (s : SendQueue) (bSkip : Bool) (Message : CMessage) :
    s.returned bSkip Message = s ∨
      ∃ i calls, s.calls = (i, .OnSendToIRCMessage) :: calls ∧
        (bSkip = true ∧ s.returned bSkip Message = (s.setMessage i Message).finished (.skipped i) ∨
          bSkip = false ∧ i ∈ s.ids ∧ s.returned bSkip Message = { s.setMessage i Message with
            calls := (i, .OnSendToIRC (Message.toString CMessage.IncludeAll)) :: calls
            log := .passed i :: s.log } ∨
          bSkip = false ∧ i ∉ s.ids ∧ s.returned bSkip Message = { s with bDangling := true }) := by
  unfold returned
  rcases hcalls : s.calls with _ | ⟨⟨i, _ | sLine⟩, calls⟩
  · exact .inl rfl
  · refine .inr ⟨i, calls, rfl, ?_⟩
    dsimp only
    cases bSkip with
    | true => exact .inl ⟨rfl, rfl⟩
    | false =>
      by_cases hmem : i ∈ s.ids
      · exact .inr (.inl ⟨rfl, hmem, if_pos hmem⟩)
      · rw [← hcalls]
        exact .inr (.inr ⟨rfl, hmem, if_neg hmem⟩)
  · exact .inl rfl

theorem returnedRaw_cases (s : SendQueue) (bSkip : Bool) (onLine : CString → CString) :
    s.returnedRaw bSkip onLine = s ∨
      ∃ i sLine calls, s.calls = (i, .OnSendToIRC sLine) :: calls ∧
        s.returnedRaw bSkip onLine = s.finished (if bSkip then .stopped i else .wrote i (sLine.map onLine)) := by
  unfold returnedRaw
  rcases hcalls : s.calls with _ | ⟨⟨i, _ | sLine⟩, calls⟩
  · exact .inl rfl
  · exact .inl rfl
  · exact .inr ⟨i, sLine, calls, rfl, rfl⟩

theorem runJob_cases (s : SendQueue) : s.calls = [] ∧ s.runJob = s.allowOne.trySend ∨ s.runJob = s := by
  unfold runJob
  split_ifs with hrun
  · have hboth : s.bFloodProtection = true ∧ s.calls.isEmpty = true := by simpa using hrun
    exact .inl ⟨List.isEmpty_iff.1 hboth.2, rfl⟩
  · exact .inr rfl

theorem go_of_defined (h : s.bDangling = false) : ¬s.bDangling = true := by
  rw [h]
  exact Bool.false_ne_true

theorem popFront_frame (s : SendQueue) : s.popFront.bFloodProtection = s.bFloodProtection ∧
    s.popFront.uFloodBurst = s.uFloodBurst ∧ s.popFront.iSendsAllowed = s.iSendsAllowed ∧ s.popFront.calls = s.calls ∧
    s.popFront.bDangling = s.bDangling := by
  unfold popFront
  cases s.vSendQueue <;> exact ⟨rfl, rfl, rfl, rfl, rfl⟩

theorem trySend_inv (h : LogInv s) (hnested : 2 ≤ s.calls.length → s.bFloodProtection = true) {waiting : List ℕ}
    (hreplay : replay hookOp s.log = some waiting) (horder : s.Blocked → s.ids = s.callIds ++ waiting)
    (hopen : ¬s.Blocked → (s.calls ≠ [] → s.bFloodProtection = true) ∧
      ∀ i Message q, s.vSendQueue = (i, Message) :: q → ∃ w, waiting = i :: w ∧ s.ids = i :: (s.callIds ++ w)) :
    Inv s.trySend := by
  by_cases hblocked : s.Blocked
  · rw [trySend_blocked hblocked]
    exact { h with order := ⟨waiting, hreplay, horder hblocked⟩, nested := hnested }
  · obtain ⟨i, Message, q, hq, hsend⟩ := trySend_open hblocked
    obtain ⟨hflood, hfront⟩ := hopen hblocked
    obtain ⟨w, hwaiting, hids⟩ := hfront i Message q hq
    have hsame : ((i, s.filterTags Message) :: q).map Prod.fst = s.ids := by
      rw [ids, hq]
      rfl
    rw [hwaiting] at hreplay
    rw [hsend]
    constructor
    · constructor
      · exact h.defined
      · exact h.distinct
      · exact h.fresh
      · rw [ids, hsame]
        exact replay_idle h.removed rfl
      · exact h.processed
      · exact fun j hj => mem_cons_of_mem _ (h.verdicts j hj)
      · exact h.written
    · refine ⟨w, replay_take hreplay rfl, ?_⟩
      rw [ids, hsame]
      exact hids
    · intro hlen
      apply hflood
      intro hnil
      dsimp only at hlen
      rw [hnil, length_singleton] at hlen
      omega

/-! ## What each step keeps -/

theorem LogInv.put {s' : SendQueue} (h : LogInv s) {e : SendEvent} (hlog : s'.log = e :: s.log)
    (hnext : s'.uNext = s.uNext + 1) (hdefined : s'.bDangling = s.bDangling) (he : (hookOp e).added = [s.uNext])
    (hremoved : replay removeOp s'.log = some s'.ids)
    (hcalls : s'.calls = s.calls)
    (hquiet : (hookOp e).taken = [] ∧ (removeOp e).taken = [] ∧ verdictOf e = [] ∧ doneOf e = [] ∧ passedOf e = [] ∧
      wroteOf e = []) : LogInv s' := by
  obtain ⟨htaken, htaken', hverdict, hdone, hpassed, hwrote⟩ := hquiet
  have hadded : added hookOp s'.log = s.uNext :: added hookOp s.log := by
    rw [hlog, added, flatMap_cons, he]
    rfl
  constructor
  · exact hdefined.trans h.defined
  · rw [hadded]
    exact nodup_cons.2 ⟨fun hmem => absurd (h.fresh _ hmem) (lt_irrefl _), h.distinct⟩
  · intro i hi
    rw [hadded] at hi
    rw [hnext]
    rcases mem_cons.1 hi with hi | hi
    · rw [hi]
      exact Nat.lt_succ_self _
    · exact (h.fresh i hi).trans (Nat.lt_succ_self _)
  · exact hremoved
  · rw [hlog, taken, flatMap_cons, flatMap_cons, htaken', hdone]
    exact h.processed
  · intro i hi
    rw [hlog, flatMap_cons, hverdict] at hi
    rw [hlog, taken, flatMap_cons, htaken]
    exact h.verdicts i hi
  · rw [hlog, hcalls, flatMap_cons, flatMap_cons, hpassed, hwrote]
    exact h.written

theorem front_waits {waiting : List ℕ} (hcalls : s.calls = []) (horder : s.ids = s.callIds ++ waiting) :
    (s.calls ≠ [] → s.bFloodProtection = true) ∧
      ∀ i Message q, s.vSendQueue = (i, Message) :: q → ∃ w, waiting = i :: w ∧ s.ids = i :: (s.callIds ++ w) := by
  refine ⟨fun hne => absurd hcalls hne, fun i Message q hq => ⟨q.map Prod.fst, ?_⟩⟩
  have hids : s.ids = i :: q.map Prod.fst := by
    rw [ids, hq]
    rfl
  rw [callIds, hcalls, map_nil, nil_append] at horder ⊢
  exact ⟨horder.symm.trans hids, hids⟩

theorem putIRC_inv (h : Inv s) {Message : CMessage} (hok : s.StepOk (.putIRC Message)) :
    Inv (s.putIRC Message) := by
  obtain ⟨waiting, hreplay, horder⟩ := h.order
  have hids : (s.pushBack Message).ids = s.ids ++ [s.uNext] := by
    rw [ids, pushBack, map_append]
    rfl
  have horder' : (s.pushBack Message).ids = s.callIds ++ (waiting ++ [s.uNext]) := by
    rw [hids, horder, append_assoc]
  have hlog : LogInv (s.pushBack Message) := by
    refine LogInv.put (e := .queued s.uNext) h.toLogInv rfl rfl rfl rfl ?_ rfl ⟨rfl, rfl, rfl, rfl, rfl, rfl⟩
    rw [hids]
    exact replay_back h.removed rfl
  apply trySend_inv hlog h.nested (replay_back hreplay rfl) (fun _ => horder')
  intro hblocked
  -- inside a hook nothing may be sent
  have hcalls : s.calls = [] := by
    by_contra hne
    exact hblocked (.inr (hok hne))
  exact front_waits hcalls horder'

theorem putIRCQuick_inv (h : Inv s) {Message : CMessage} (hok : s.StepOk (.putIRCQuick Message)) :
    Inv (s.putIRCQuick Message) := by
  obtain ⟨waiting, hreplay, horder⟩ := h.order
  have hids : (s.emplaceFront Message).ids = s.uNext :: (s.callIds ++ waiting) := by
    rw [← horder]
    rfl
  have hlog : LogInv (s.emplaceFront Message) := by
    refine LogInv.put (e := .queuedFront s.uNext) h.toLogInv rfl rfl rfl rfl ?_ rfl ⟨rfl, rfl, rfl, rfl, rfl, rfl⟩
    exact replay_front h.removed rfl
  apply trySend_inv hlog h.nested (replay_front hreplay rfl)
  · intro hblocked
    -- inside a hook the message is sent at once
    have hcalls : s.calls = [] := by
      by_contra hne
      rcases hblocked with hempty | ⟨-, hallowed⟩
      · cases hempty
      · exact absurd (hok hne).2 (not_lt.2 hallowed)
    have hcalls' : (s.emplaceFront Message).calls = [] := hcalls
    rw [hids, callIds, callIds, hcalls, hcalls']
    rfl
  · intro _
    refine ⟨fun hne => (hok hne).1, fun i m q hq => ⟨waiting, ?_⟩⟩
    obtain ⟨he, -⟩ := List.cons.inj hq
    rw [hids, ← (Prod.mk.inj he).1]
    exact ⟨rfl, rfl⟩

theorem runJob_inv (h : Inv s) : Inv s.runJob := by
  obtain ⟨waiting, hreplay, horder⟩ := h.order
  rcases runJob_cases s with ⟨hcalls, hrun⟩ | hsame
  · have hlog : LogInv s.allowOne :=
      ⟨h.defined, h.distinct, h.fresh, replay_idle h.removed rfl, h.processed, h.verdicts, h.written⟩
    have horder' : s.allowOne.ids = s.allowOne.callIds ++ waiting := horder
    rw [hrun]
    exact trySend_inv hlog h.nested (replay_idle hreplay rfl) (fun _ => horder') fun _ => front_waits hcalls horder'
  · rw [hsame]
    exact h

theorem Inv.setMessage (h : Inv s) (i : ℕ) (Message : CMessage) : Inv (s.setMessage i Message) := by
  obtain ⟨waiting, hreplay, horder⟩ := h.order
  refine ⟨⟨h.defined, h.distinct, h.fresh, ?_, h.processed, h.verdicts, h.written⟩, ⟨waiting, hreplay, ?_⟩, h.nested⟩
  · rw [ids_setMessage]
    exact h.removed
  · rw [ids_setMessage]
    exact horder

/-- the message of an open call is at the front, and the hook has seen it, since it does not wait -/
theorem Inv.front (h : Inv s) {i : ℕ} {hook : EHook} {calls : List (ℕ × EHook)} (hcalls : s.calls = (i, hook) :: calls) :
    ∃ Message q waiting, s.vSendQueue = (i, Message) :: q ∧ q.map Prod.fst = calls.map Prod.fst ++ waiting ∧
      replay hookOp s.log = some waiting ∧ i ∈ taken hookOp s.log := by
  obtain ⟨waiting, hreplay, horder⟩ := h.order
  rw [callIds, hcalls, map_cons, cons_append] at horder
  cases hq : s.vSendQueue with
  | nil =>
    rw [ids, hq] at horder
    cases horder
  | cons e q =>
    have hids := horder
    rw [ids, hq] at hids
    obtain ⟨he, hids⟩ := List.cons.inj hids
    refine ⟨e.2, q, waiting, ?_, hids, hreplay, ?_⟩
    · exact congrArg (· :: q) (Prod.ext he rfl)
    · have hnodup : s.ids.Nodup := by
        have hperm := replay_perm h.removed
        rw [added_removeOp] at hperm
        exact (hperm.nodup_iff.2 h.distinct).of_append_right
      have hadded : i ∈ added hookOp s.log := by
        rw [← added_removeOp]
        apply (replay_perm h.removed).subset
        rw [horder]
        exact mem_append_right _ mem_cons_self
      have hwaits : i ∉ waiting := by
        rw [horder] at hnodup
        exact fun hmem => (nodup_cons.1 hnodup).1 (mem_append_right _ hmem)
      exact (mem_append.1 ((replay_perm hreplay).symm.subset hadded)).resolve_right hwaits

theorem LogInv.popped (h : LogInv s) {i : ℕ} {Message : CMessage} {q : List (ℕ × CMessage)} {calls : List (ℕ × EHook)}
    (hq : s.vSendQueue = (i, Message) :: q) (hseen : i ∈ taken hookOp s.log) {e : SendEvent}
    (hidle : hookOp e = .idle ∧ removeOp e = .idle) (hdone : doneOf e = [i]) (hverdict : ∀ j ∈ verdictOf e, j = i)
    (hwritten : (calls.flatMap rawOf ++ (e :: s.log).flatMap wroteOf).Perm ((e :: s.log).flatMap passedOf)) :
    LogInv { s with vSendQueue := q, calls, log := .removed i :: e :: s.log } := by
  obtain ⟨hhook, hremove⟩ := hidle
  have hremoved := h.removed
  rw [ids, hq, map_cons] at hremoved
  constructor
  · exact h.defined
  · rw [added, flatMap_cons, flatMap_cons, hhook]
    exact h.distinct
  · intro j hj
    rw [added, flatMap_cons, flatMap_cons, hhook] at hj
    exact h.fresh j hj
  · exact replay_take (replay_idle hremoved hremove) rfl
  · rw [taken, flatMap_cons, flatMap_cons, flatMap_cons, flatMap_cons, hremove, hdone]
    exact congrArg (i :: ·) h.processed
  · intro j hj
    rw [flatMap_cons, flatMap_cons] at hj
    rw [taken, flatMap_cons, flatMap_cons, hhook]
    rcases mem_append.1 hj with hj | hj
    · cases hj
    · rcases mem_append.1 hj with hj | hj
      · rw [hverdict j hj]
        exact hseen
      · exact h.verdicts j hj
  · exact hwritten

theorem finished_inv (h : Inv s) {i : ℕ} {hook : EHook} {calls : List (ℕ × EHook)}
    (hcalls : s.calls = (i, hook) :: calls) (hok : 2 ≤ s.calls.length → s.iSendsAllowed ≤ 0) {e : SendEvent}
    (hidle : hookOp e = .idle ∧ removeOp e = .idle) (hdone : doneOf e = [i]) (hverdict : ∀ j ∈ verdictOf e, j = i)
    (hwritten : (calls.flatMap rawOf ++ (e :: s.log).flatMap wroteOf).Perm ((e :: s.log).flatMap passedOf)) :
    Inv (s.finished e) := by
  obtain ⟨Message, q, waiting, hq, hids, hreplay, hseen⟩ := h.front hcalls
  have hpop : ({ s with calls := s.calls.tail, log := e :: s.log } : SendQueue).popFront =
      { s with vSendQueue := q, calls, log := .removed i :: e :: s.log } := by
    rw [popFront, hq, hcalls]
    rfl
  have hreplay' : replay hookOp (.removed i :: e :: s.log) = some waiting :=
    replay_idle (replay_idle hreplay hidle.1) rfl
  have hnested : calls ≠ [] → 2 ≤ s.calls.length := by
    intro hne
    rw [hcalls, length_cons]
    exact Nat.succ_le_succ (length_pos_iff.2 hne)
  have hne : s.vSendQueue ≠ [] := by
    rw [hq]
    exact cons_ne_nil _ _
  rw [((finished_cases s e).resolve_left fun h0 => hne h0.1).2, hpop]
  apply trySend_inv (h.popped hq hseen hidle hdone hverdict hwritten) _ hreplay' fun _ => hids
  · intro hblocked
    -- in an outer call nothing more may be sent
    have hnil : calls = [] := by
      by_contra hne
      apply hblocked
      right
      exact ⟨h.nested (hnested hne), hok (hnested hne)⟩
    apply front_waits
    · exact hnil
    · exact hids
  · intro hlen
    apply h.nested
    rw [hcalls, length_cons]
    exact hlen.trans (Nat.le_succ _)

theorem returned_inv (h : Inv s) {bSkip : Bool} {Message : CMessage} (hok : s.StepOk (.returned bSkip Message)) :
    Inv (s.returned bSkip Message) := by
  rcases returned_cases s bSkip Message with hsame | ⟨i, calls, hcalls, hskip | hpass | hgone⟩
  · rw [hsame]
    exact h
  · obtain ⟨hskip, hreturned⟩ := hskip
    have hwritten := h.written
    rw [hcalls] at hwritten
    rw [hreturned]
    refine finished_inv (h.setMessage i Message) hcalls (hok hskip) ⟨rfl, rfl⟩ rfl (fun j hj => ?_) hwritten
    exact mem_singleton.1 hj
  · obtain ⟨-, -, hreturned⟩ := hpass
    obtain ⟨-, -, waiting, -, -, hreplay, hseen⟩ := h.front hcalls
    obtain ⟨waiting', hreplay', horder⟩ := (h.setMessage i Message).order
    have hwritten := h.written
    rw [hcalls] at hwritten
    rw [hreturned]
    refine ⟨⟨h.defined, h.distinct, h.fresh, ?_, h.processed, fun j hj => ?_, ?_⟩, ⟨waiting', ?_, ?_⟩, ?_⟩
    · exact replay_idle (h.setMessage i Message).removed rfl
    · rcases mem_cons.1 hj with hj | hj
      · rw [hj]
        exact hseen
      · exact h.verdicts j hj
    · exact hwritten.cons i
    · exact replay_idle hreplay' rfl
    · rw [callIds] at horder ⊢
      exact horder.trans (by rw [SendQueue.setMessage, hcalls]; rfl)
    · intro hlen
      apply h.nested
      rw [hcalls]
      exact hlen
  · obtain ⟨-, hgone, -⟩ := hgone
    obtain ⟨Message', q, -, hq, -⟩ := h.front hcalls
    rw [ids, hq] at hgone
    exact absurd mem_cons_self hgone

theorem returnedRaw_inv (h : Inv s) {bSkip : Bool} {onLine : CString → CString}
    (hok : s.StepOk (.returnedRaw bSkip onLine)) : Inv (s.returnedRaw bSkip onLine) := by
  obtain ⟨hskip, hallowed⟩ := hok
  rcases returnedRaw_cases s bSkip onLine with hsame | ⟨i, sLine, calls, hcalls, hreturned⟩
  · rw [hsame]
    exact h
  · have hwritten := h.written
    rw [hcalls] at hwritten
    rw [hreturned, hskip, if_neg Bool.false_ne_true]
    refine finished_inv h hcalls hallowed ⟨rfl, rfl⟩ rfl (fun j hj => ?_) ?_
    · cases hj
    · exact perm_middle.trans hwritten

theorem inv_initial (uFloodBurst : UInt16) (bFloodProtection : Bool) : Inv (initial uFloodBurst bFloodProtection) := by
  refine ⟨⟨rfl, nodup_nil, fun i hi => ?_, rfl, rfl, fun i hi => ?_, .rfl⟩, ⟨[], rfl, rfl⟩, fun hlen => ?_⟩
  · cases hi
  · cases hi
  · exact absurd hlen (Nat.not_le_of_lt Nat.zero_lt_two)

theorem exec_inv (h : Inv s) {a : SendAct} (hok : s.StepOk a) : Inv (s.exec a) := by
  rw [exec.eq_def, if_neg (go_of_defined h.defined)]
  cases a with
  | putIRC Message => exact putIRC_inv h hok
  | putIRCQuick Message => exact putIRCQuick_inv h hok
  | runJob => exact runJob_inv h
  | returned bSkip Message => exact returned_inv h hok
  | returnedRaw bSkip onLine => exact returnedRaw_inv h hok
  | caps bMessageTagCap ssSupportedTags =>
    exact ⟨⟨h.defined, h.distinct, h.fresh, h.removed, h.processed, h.verdicts, h.written⟩, h.order, h.nested⟩

/-- **The send queue is exact.** In every run whose steps meet `StepOk` each message is handed to the hook once, in the order of
the queue, and written once if it passes; and none is taken away before that. -/
theorem send_exact (uFloodBurst : UInt16) (bFloodProtection : Bool) (acts : List SendAct)
    (hok : Along exec (fun _ => StepOk) acts (initial uFloodBurst bFloodProtection)) :
    Exact (acts.foldl exec (initial uFloodBurst bFloodProtection)) := by
  have hinv := along_inv exec (fun a _ s (h : Inv s) ha => exec_inv h ha) acts _
    (inv_initial uFloodBurst bFloodProtection) hok
  exact hinv.exact

/-- a message without parameters -/
def bare (sCommand : CString) : CMessage := ⟨.empty, sCommand, [], .empty, ⟨0, 0⟩, .Unknown, false⟩

/-- a message, another one put from inside its hook, and a tick; the line that stays is the one of the message -/
def putInside (inside : SendAct) : List SendAct :=
  [.putIRC (bare (lit "A")), inside, .returned false (bare (lit "A")), .returnedRaw false id, .runJob,
    .returned false (bare (lit "A")), .returnedRaw false id]

/-- the other one is put at the end -/
theorem send_exact_inside : Exact ((putInside (.putIRC (bare (lit "B")))).foldl exec (initial 1 true)) :=
  send_exact 1 true (putInside (.putIRC (bare (lit "B")))) (by decide)

/-- the other one is put to the front: it is taken away unseen, and the first one is written twice -/
theorem send_twice : ¬ Exact ((putInside (.putIRCQuick (bare (lit "B")))).foldl exec (initial 1 true)) := by
  intro h
  have hwritten : ((putInside (.putIRCQuick (bare (lit "B")))).foldl exec (initial 1 true)).log.flatMap wroteOf = [0, 0] := by
    decide
  have honce := h.once
  rw [hwritten] at honce
  exact absurd honce (by decide)

end SendQueue

end ZNC
