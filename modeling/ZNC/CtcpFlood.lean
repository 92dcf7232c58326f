/-
Replies to CTCP queries: `CIRCSock::OnCTCPMessage` of `src/IRCSock.cpp` with its flood check.

The check is a counter. It counts the replies that were sent, and starts again when the query before was more than
`m_uCTCPFloodTime` ago; a query that gets no reply for the flood moves that moment all the same. The clock is the steady clock in
milliseconds, counted down from nanoseconds of 63 bits, so that adding the flood time to it does not overflow.

What the handler asks of modules, channels and the user is in `Around`, which may be another one for each message.

Results:
- `onCTCPMessage_check`: a message either leaves the state alone and sends nothing, or goes through the check;
- `passed_from`, `passed_before`: what a state lets pass of a window, from within it and from before it;
- `passed_le`: of any window of the flood time, at most `m_uCTCPFloodCount` queries pass.
-/
import ZNC.Token
import ZNC.Message

namespace ZNC.CtcpFlood

open CString CMessage List

/-! ## Model -/

def m_uCTCPFloodTime : ℕ := 5000

def m_uCTCPFloodCount : ℕ := 5

/-- the part of `CIRCSock` that the check reads and writes -/
structure CIRCSock where
  m_lastCTCP : ℕ
  m_uNumCTCP : ℕ
deriving DecidableEq

/-- what `OnCTCPMessage` finds at a message -/
structure Around where
  -- `CUtils::GetMillTime()`
  now : ℕ
  -- `GetNick()`
  sNick : CString
  -- `FindChan`: whether the channel is detached
  findChan : CString → Option Bool
  -- what the modules leave of the message, and whether they keep it; for a channel `FixupChanNick` is before them
  onCTCPReply : CMessage → CMessage × Bool
  onPrivCTCP : CMessage → CMessage × Bool
  onChanCTCP : CMessage → CMessage × Bool
  -- `GetCTCPReplies()`
  mssCTCPReplies : MCString
  expandString : CString → CString
  isUserAttached : Bool
  -- `CZNC::GetTag(false)`
  sTag : CString

def isReply (Message : CMessage) : Bool := Message.sCommand.equals (lit "NOTICE")

/-- `GetText()` of a `CCTCPMessage` -/
def getText (Message : CMessage) : CString := ((Message.getParam 1).trimPrefix_n soh).trimSuffix_n soh

/-- the modules' part: the message that is left and whether its channel is detached, or what is returned at once -/
def modules (w : Around) (Message : CMessage) : Except Bool (CMessage × Bool) :=
  let sTarget := Message.getParam 0
  if sTarget.equals w.sNick then
    if isReply Message then .error (w.onCTCPReply Message).2
    else if (w.onPrivCTCP Message).2 then .error true
    else .ok ((w.onPrivCTCP Message).1, false)
  else
    match w.findChan sTarget with
    | none => .ok (Message, false)
    | some isDetached =>
      if isReply Message then .error (w.onCTCPReply Message).2
      else if (w.onChanCTCP Message).2 then .error true
      else .ok ((w.onChanCTCP Message).1, isDetached)

def query (Message : CMessage) : CString := ((getText Message).token 0 false (ch ' ') false).asUpper

/-- `bHaveReply` and `sReply` -/
def reply (w : Around) (Message : CMessage) : Bool × CString :=
  match w.mssCTCPReplies.find (query Message) with
  | some sReply => (true, w.expandString sReply)
  | none =>
    if w.isUserAttached then (false, [])
    else if query Message = lit "VERSION" then (false, w.sTag)
    else if query Message = lit "PING" then (false, (getText Message).token 1 true (ch ' ') false)
    else (false, [])

/-- the flood check: whether the query passes -/
def floodCheck (s : CIRCSock) (now : ℕ) : CIRCSock × Bool :=
  let m_uNumCTCP := if s.m_lastCTCP + m_uCTCPFloodTime < now then 0 else s.m_uNumCTCP
  if m_uNumCTCP ≥ m_uCTCPFloodCount then (⟨now, m_uNumCTCP⟩, false) else (⟨now, m_uNumCTCP + 1⟩, true)

/-- the line that is put to the server -/
def noticeLine (Message : CMessage) (sReply : CString) : CString :=
  lit "NOTICE " ++ Message.nick.sNick ++ lit " :" ++ soh ++ query Message ++ lit " " ++ sReply ++ soh

/-- `OnCTCPMessage(Message)`: the new state, what is returned, and what is put to the server -/
def onCTCPMessage (w : Around) (s : CIRCSock) (Message : CMessage) : CIRCSock × Bool × Option CString :=
  match modules w Message with
  | .error bResult => (s, bResult, none)
  | .ok (Message, isDetached) =>
    let r := reply w Message
    if r.1 && r.2 = [] then (s, true, none)
    else if r.2 ≠ [] then
      let c := floodCheck s w.now
      (c.1, true, if c.2 then some (noticeLine Message r.2) else none)
    else (s, isDetached, none)

/-- the socket of a new connection -/
def CIRCSock.start : CIRCSock := ⟨0, 0⟩

/-- the times of the queries that pass, in a run from a state -/
def passed (s : CIRCSock) : List (Around × CMessage) → List ℕ
  | [] => []
  | (w, Message) :: es =>
    let r := onCTCPMessage w s Message
    (if r.2.2.isSome then [w.now] else []) ++ passed r.1 es

/-! ## One message -/

theorem onCTCPMessage_check (w : Around) (s : CIRCSock) (Message : CMessage) :
    (onCTCPMessage w s Message).1 = s ∧ (onCTCPMessage w s Message).2.2 = none ∨
      (onCTCPMessage w s Message).1 = (floodCheck s w.now).1 ∧
        (onCTCPMessage w s Message).2.2.isSome = (floodCheck s w.now).2 := by
  rw [onCTCPMessage]
  cases modules w Message with
  | error bResult => exact .inl ⟨rfl, rfl⟩
  | ok r =>
    simp only
    by_cases hdone : (reply w r.1).1 && (reply w r.1).2 = []
    · rw [if_pos hdone]
      exact .inl ⟨rfl, rfl⟩
    · rw [if_neg hdone]
      by_cases hreply : (reply w r.1).2 = []
      · rw [if_neg (not_not_intro hreply)]
        exact .inl ⟨rfl, rfl⟩
      · rw [if_pos hreply]
        refine .inr ⟨rfl, ?_⟩
        cases (floodCheck s w.now).2 <;> rfl

theorem floodCheck_within {s : CIRCSock} {now : ℕ} (h : now ≤ s.m_lastCTCP + m_uCTCPFloodTime) :
    floodCheck s now =
      if s.m_uNumCTCP < m_uCTCPFloodCount then (⟨now, s.m_uNumCTCP + 1⟩, true) else (⟨now, s.m_uNumCTCP⟩, false) := by
  rw [floodCheck, if_neg (not_lt.2 h)]
  by_cases hnum : s.m_uNumCTCP < m_uCTCPFloodCount
  · rw [if_neg (not_le.2 hnum), if_pos hnum]
  · rw [if_pos (not_lt.1 hnum), if_neg hnum]

theorem floodCheck_counts (s : CIRCSock) (now : ℕ) : (floodCheck s now).1.m_lastCTCP = now ∧
    ((floodCheck s now).2 = true → 0 < (floodCheck s now).1.m_uNumCTCP) := by
  rw [floodCheck]
  generalize (if s.m_lastCTCP + m_uCTCPFloodTime < now then 0 else s.m_uNumCTCP) = m_uNumCTCP
  by_cases hnum : m_uNumCTCP ≥ m_uCTCPFloodCount
  · rw [if_pos hnum]
    exact ⟨rfl, fun h => absurd h Bool.false_ne_true⟩
  · rw [if_neg hnum]
    exact ⟨rfl, fun _ => Nat.succ_pos _⟩

/-! ## Runs -/

def inWindow (t : ℕ) (ts : List ℕ) : ℕ := ts.countP fun now => t ≤ now ∧ now ≤ t + m_uCTCPFloodTime

/-- the times of the messages do not go back, nor before the last query -/
def Ordered (s : CIRCSock) (es : List (Around × CMessage)) : Prop :=
  (es.map fun e => e.1.now).Pairwise (· ≤ ·) ∧ ∀ e ∈ es, s.m_lastCTCP ≤ e.1.now

variable {s : CIRCSock} {w : Around} {Message : CMessage} {es : List (Around × CMessage)} {t : ℕ}

theorem Ordered.head (h : Ordered s ((w, Message) :: es)) : s.m_lastCTCP ≤ w.now := h.2 _ mem_cons_self

theorem Ordered.tail (h : Ordered s ((w, Message) :: es)) : Ordered (onCTCPMessage w s Message).1 es := by
  obtain ⟨hlater, hsorted⟩ := pairwise_cons.1 h.1
  refine ⟨hsorted, fun e he => ?_⟩
  rcases onCTCPMessage_check w s Message with ⟨hsame, -⟩ | ⟨hcheck, -⟩
  · rw [hsame]
    exact h.2 e (mem_cons_of_mem _ he)
  · rw [hcheck, (floodCheck_counts s w.now).1]
    exact hlater _ (mem_map_of_mem he)

theorem passed_cons : passed s ((w, Message) :: es) =
    (if (onCTCPMessage w s Message).2.2.isSome then [w.now] else []) ++ passed (onCTCPMessage w s Message).1 es := rfl

theorem mem_passed {now : ℕ} (h : now ∈ passed s es) : ∃ e ∈ es, e.1.now = now := by
  induction es generalizing s with
  | nil => exact nomatch h
  | cons e es ih =>
    rcases mem_append.1 h with h | h
    · split at h
      · exact ⟨e, mem_cons_self, (mem_singleton.1 h).symm⟩
      · exact nomatch h
    · obtain ⟨e', he', hnow⟩ := ih h
      exact ⟨e', mem_cons_of_mem _ he', hnow⟩

theorem inWindow_eq_zero (h : ∀ e ∈ es, t + m_uCTCPFloodTime < e.1.now) : inWindow t (passed s es) = 0 := by
  rw [inWindow, countP_eq_zero]
  intro now hnow hin
  obtain ⟨e, he, rfl⟩ := mem_passed hnow
  have hlate := h e he
  rw [decide_eq_true_eq] at hin
  omega

/-- **From within the window** no more passes than the counter leaves room for: every pause in the window is short enough. -/
theorem passed_from (hlast : t ≤ s.m_lastCTCP) (h : Ordered s es) :
    inWindow t (passed s es) ≤ m_uCTCPFloodCount - s.m_uNumCTCP := by
  induction es generalizing s with
  | nil => exact Nat.zero_le _
  | cons e es ih =>
    obtain ⟨w, Message⟩ := e
    have hnow := h.head
    by_cases hlate : t + m_uCTCPFloodTime < w.now
    · -- this message and all later ones are behind the window
      have hall : ∀ e ∈ (w, Message) :: es, t + m_uCTCPFloodTime < e.1.now := by
        intro e he
        rcases mem_cons.1 he with rfl | he
        · exact hlate
        · exact hlate.trans_le ((pairwise_cons.1 h.1).1 _ (mem_map_of_mem he))
      rw [inWindow_eq_zero hall]
      exact Nat.zero_le _
    · rw [passed_cons]
      rcases onCTCPMessage_check w s Message with ⟨hsame, hnone⟩ | ⟨hcheck, hpass⟩
      · have htail := h.tail
        rw [hsame] at htail ⊢
        rw [hnone]
        exact ih hlast htail
      · have hin : w.now ≤ s.m_lastCTCP + m_uCTCPFloodTime := by omega
        have hwithin := floodCheck_within hin
        have htail := h.tail
        rw [hcheck] at htail ⊢
        rw [hpass]
        rw [hwithin] at htail ⊢
        by_cases hnum : s.m_uNumCTCP < m_uCTCPFloodCount
        · rw [if_pos hnum] at htail ⊢
          have hrest := ih (s := ⟨w.now, s.m_uNumCTCP + 1⟩) (hlast.trans hnow) htail
          have hone : inWindow t ([w.now] ++ passed ⟨w.now, s.m_uNumCTCP + 1⟩ es) ≤
              1 + inWindow t (passed ⟨w.now, s.m_uNumCTCP + 1⟩ es) := by
            rw [inWindow, countP_append]
            exact Nat.add_le_add_right (countP_le_length (l := [w.now])) _
          refine hone.trans ?_
          simp only at hrest
          omega
        · rw [if_neg hnum] at htail ⊢
          exact ih (s := ⟨w.now, s.m_uNumCTCP⟩) (hlast.trans hnow) htail

/-- **From before the window** no more passes than the limit: its first query brings the state into it. -/
theorem passed_before (h : Ordered s es) : inWindow t (passed s es) ≤ m_uCTCPFloodCount := by
  induction es generalizing s with
  | nil => exact Nat.zero_le _
  | cons e es ih =>
    obtain ⟨w, Message⟩ := e
    have htail := h.tail
    rw [passed_cons]
    rcases onCTCPMessage_check w s Message with ⟨hsame, hnone⟩ | ⟨hcheck, hpass⟩
    · rw [hsame] at htail ⊢
      rw [hnone]
      exact ih htail
    · rw [hcheck] at htail ⊢
      rw [hpass]
      obtain ⟨hlast, hcount⟩ := floodCheck_counts s w.now
      by_cases hbefore : t ≤ w.now
      · have hrest := passed_from (t := t) (hlast.ge.trans' hbefore) htail
        cases hp : (floodCheck s w.now).2 with
        | false =>
          rw [if_neg Bool.false_ne_true, nil_append]
          exact hrest.trans (Nat.sub_le _ _)
        | true =>
          have hpos := hcount hp
          have hone : inWindow t ([w.now] ++ passed (floodCheck s w.now).1 es) ≤
              1 + inWindow t (passed (floodCheck s w.now).1 es) := by
            rw [inWindow, countP_append]
            exact Nat.add_le_add_right (countP_le_length (l := [w.now])) _
          rw [if_pos rfl]
          refine hone.trans ?_
          have hlimit : 0 < m_uCTCPFloodCount := by decide
          omega
      · -- the query itself is before the window
        have hout : inWindow t ((if (floodCheck s w.now).2 then [w.now] else []) ++ passed (floodCheck s w.now).1 es) =
            inWindow t (passed (floodCheck s w.now).1 es) := by
          rw [inWindow, countP_append]
          have hzero : (if (floodCheck s w.now).2 then [w.now] else []).countP
              (fun now => t ≤ now ∧ now ≤ t + m_uCTCPFloodTime) = 0 := by
            rw [countP_eq_zero]
            intro now hmem hin
            rw [decide_eq_true_eq] at hin
            split at hmem
            · exact hbefore (mem_singleton.1 hmem ▸ hin.1)
            · exact nomatch hmem
          rw [hzero, Nat.zero_add]
          rfl
        rw [hout]
        exact ih htail

/-- **The flood limit.** In a run of a new socket over messages whose times do not go back, no window as long as the flood time, and
so no shorter one, has more queries that pass than the flood count. -/
theorem passed_le (es : List (Around × CMessage)) (hsorted : (es.map fun e => e.1.now).Pairwise (· ≤ ·)) (t : ℕ) :
    inWindow t (passed CIRCSock.start es) ≤ m_uCTCPFloodCount :=
  passed_before ⟨hsorted, fun _ _ => Nat.zero_le _⟩

/-- a user who is not attached, and no modules -/
def sampleAround (now : ℕ) : Around :=
  ⟨now, lit "me", fun _ => none, fun m => (m, false), fun m => (m, false), fun m => (m, false), .empty,
    id, false, lit "ZNC"⟩

/-- a query for the version -/
def sampleVersion : CMessage :=
  { blank stoppedClock with
    nick := ⟨lit "you", lit "u", lit "h"⟩
    sCommand := lit "PRIVMSG"
    vsParams := [lit "me", soh ++ lit "VERSION" ++ soh] }

/-- six queries at once and one more after the flood time: all pass but one of the six -/
theorem passed_le_six :
    inWindow 9000 (passed CIRCSock.start (([9000, 9001, 9002, 9003, 9004, 9005, 14006] : List ℕ).map fun now =>
      (sampleAround now, sampleVersion))) ≤ m_uCTCPFloodCount :=
  passed_le _ (by decide) 9000

example : passed CIRCSock.start (([9000, 9001, 9002, 9003, 9004, 9005, 14006] : List ℕ).map fun now =>
    (sampleAround now, sampleVersion)) = [9000, 9001, 9002, 9003, 9004, 14006] := by decide

end ZNC.CtcpFlood
