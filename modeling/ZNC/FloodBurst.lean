/-
Flood protection of the send queue: how much is written, and when.

`m_iSendsAllowed` starts at the burst, goes down with each message that is handed to the hook, and up with each tick of the timer
while it is below the burst. It is a `short`, the burst an `unsigned short`.

Results:
- `exec_burst`: what each step keeps of the number of messages that may be sent;
- `exec_spends`: what each step writes, against its ticks;
- `flood_iff`: the bounds hold in all runs, exactly for the bursts up to 32767.
-/
import ZNC.SendQueue

namespace ZNC.SendQueue

open CString List

/-! ## What flood protection promises -/

/-- the lines written and the ticks in some part of the history -/
def writes (log : List SendEvent) : ℕ := (log.flatMap wroteOf).length

def ticks (log : List SendEvent) : ℕ := log.count .tick

/-- what a module does from inside a hook -/
def SendAct.Inside : SendAct → Prop
  | .putIRC _ => True
  | .putIRCQuick _ => True
  | .caps _ _ => True
  | _ => False

/-- the state after some steps with flood protection -/
def runBurst (uFloodBurst : UInt16) (acts : List SendAct) : SendQueue := acts.foldl exec (initial uFloodBurst true)

/-- what flood protection with this burst promises, for all runs -/
structure Promised (uFloodBurst : UInt16) : Prop where
  bounds : ∀ acts, 0 ≤ (runBurst uFloodBurst acts).iSendsAllowed ∧
    (runBurst uFloodBurst acts).iSendsAllowed ≤ uFloodBurst.toNat
  /-- no more than the burst and one for each tick in any stretch of a run -/
  rate : ∀ acts stretch, ∃ log, (runBurst uFloodBurst (acts ++ stretch)).log = log ++ (runBurst uFloodBurst acts).log ∧
    writes log ≤ uFloodBurst.toNat + ticks log
  /-- a message that waits while no hook is open is handed over by the next tick, and written if it passes, whatever the module
  puts from inside the two hooks -/
  next : 0 < uFloodBurst.toNat → ∀ acts, (runBurst uFloodBurst acts).calls = [] →
    (runBurst uFloodBurst acts).vSendQueue ≠ [] → ∃ i ∈ (runBurst uFloodBurst acts).ids.head?,
      ∀ inside insideRaw : List SendAct, (∀ a ∈ inside, a.Inside) → (∀ a ∈ insideRaw, a.Inside) → ∀ Message onLine, ∃ log,
        (runBurst uFloodBurst (acts ++ .runJob :: inside ++ .returned false Message :: insideRaw ++
            [.returnedRaw false onLine])).log = log ++ (runBurst uFloodBurst acts).log ∧
        .wrote i ((Message.toString CMessage.IncludeAll).map onLine) ∈ log

/-! ## The number of messages that may be sent -/

theorem short_eq {n : ℤ} (h1 : -2 ^ 15 ≤ n) (h2 : n < 2 ^ 15) : short n = n := by
  unfold short
  rw [Int.bmod_eq_iff (by decide)]
  omega

theorem spend_one {s : SendQueue} (hflood : s.bFloodProtection = true) (hbound : s.iSendsAllowed < 2 ^ 15)
    (hopen : ¬s.Blocked) : 0 < s.iSendsAllowed ∧ short (s.iSendsAllowed - 1) = s.iSendsAllowed - 1 := by
  have hpos : 0 < s.iSendsAllowed := by
    by_contra hno
    exact hopen (.inr ⟨hflood, not_lt.1 hno⟩)
  refine ⟨hpos, short_eq ?_ ?_⟩
  · omega
  · omega

variable {uFloodBurst : UInt16} {s : SendQueue}

theorem short_burst_neg (h : 32767 < uFloodBurst.toNat) : short uFloodBurst.toNat < 0 := by
  have hlt : uFloodBurst.toNat < 2 ^ 16 := uFloodBurst.toNat_lt
  have heq : short uFloodBurst.toNat = uFloodBurst.toNat - 2 ^ 16 := by
    unfold short
    rw [Int.bmod_eq_iff (by decide)]
    omega
  omega

/-- what the steps keep -/
structure BurstInv (uFloodBurst : UInt16) (s : SendQueue) : Prop where
  flood : s.bFloodProtection = true
  burst : s.uFloodBurst = uFloodBurst
  nonneg : 0 ≤ s.iSendsAllowed
  /-- each open call has used up one -/
  credit : s.iSendsAllowed + s.calls.length ≤ uFloodBurst.toNat
  /-- while no hook is open, nothing may be sent or nothing is there -/
  rest : s.calls = [] → s.Blocked ∧ s.bDangling = false

theorem setMessage_burst (h : BurstInv uFloodBurst s) (hcalls : s.calls ≠ []) (i : ℕ) (Message : CMessage) :
    BurstInv uFloodBurst (s.setMessage i Message) :=
  ⟨h.flood, h.burst, h.nonneg, h.credit, fun hnil => absurd hnil hcalls⟩

variable (hburst : uFloodBurst.toNat ≤ 32767)

include hburst

theorem trySend_burst (hflood : s.bFloodProtection = true)
    (heq : s.uFloodBurst = uFloodBurst) (hnonneg : 0 ≤ s.iSendsAllowed)
    (hcredit : s.iSendsAllowed + s.calls.length ≤ uFloodBurst.toNat) (hdefined : s.bDangling = false) :
    BurstInv uFloodBurst s.trySend := by
  by_cases hblocked : s.Blocked
  · rw [trySend_blocked hblocked]
    exact ⟨hflood, heq, hnonneg, hcredit, fun _ => ⟨hblocked, hdefined⟩⟩
  · obtain ⟨i, Message, q, hq, hsend⟩ := trySend_open hblocked
    obtain ⟨hpos, hshort⟩ := spend_one hflood (by omega) hblocked
    rw [hsend, hshort]
    refine ⟨hflood, heq, ?_, ?_, fun hcalls => ?_⟩
    · dsimp only
      omega
    · dsimp only
      rw [length_cons]
      push_cast
      omega
    · cases hcalls

theorem allowOne_allowed (h : BurstInv uFloodBurst s) : s.allowOne.iSendsAllowed =
      if s.iSendsAllowed < uFloodBurst.toNat then s.iSendsAllowed + 1 else s.iSendsAllowed := by
  have hnonneg := h.nonneg
  rw [allowOne, h.burst]
  dsimp only
  split_ifs with hlt
  · apply short_eq
    · omega
    · omega
  · rfl

theorem finished_burst (h : BurstInv uFloodBurst s) (hdefined : s.bDangling = false)
    (hcalls : s.calls ≠ []) (e : SendEvent) : BurstInv uFloodBurst (s.finished e) := by
  rcases finished_cases s e with ⟨-, hgone⟩ | ⟨-, hback⟩
  · rw [hgone]
    exact ⟨h.flood, h.burst, h.nonneg, h.credit, fun hnil => absurd hnil hcalls⟩
  · have hcredit := h.credit
    have hlen : s.calls.tail.length + 1 = s.calls.length := by
      rw [length_tail]
      exact Nat.sub_add_cancel (length_pos_iff.2 hcalls)
    obtain ⟨h1, h2, h3, h4, h5⟩ := popFront_frame { s with calls := s.calls.tail, log := e :: s.log }
    rw [hback]
    apply trySend_burst hburst
    · exact h1.trans h.flood
    · exact h2.trans h.burst
    · rw [h3]
      exact h.nonneg
    · rw [h3, h4]
      dsimp only
      omega
    · rw [h5]
      exact hdefined

theorem exec_burst (h : BurstInv uFloodBurst s) (a : SendAct) : BurstInv uFloodBurst (s.exec a) := by
  rw [exec.eq_def]
  by_cases hdangling : s.bDangling = true
  · rw [if_pos hdangling]
    exact h
  have hdefined : s.bDangling = false := Bool.eq_false_iff.2 hdangling
  rw [if_neg hdangling]
  cases a with
  | putIRC Message => exact trySend_burst hburst h.flood h.burst h.nonneg h.credit hdefined
  | putIRCQuick Message => exact trySend_burst hburst h.flood h.burst h.nonneg h.credit hdefined
  | runJob =>
    dsimp only
    rcases runJob_cases s with ⟨hcalls, hrun⟩ | hsame
    · have hcredit := h.credit
      have hnonneg := h.nonneg
      have hallowed := allowOne_allowed hburst h
      have hcalls' : s.allowOne.calls = [] := hcalls
      rw [hcalls, length_nil] at hcredit
      rw [hrun]
      apply trySend_burst hburst
      · exact h.flood
      · exact h.burst
      · rw [hallowed]
        split_ifs <;> omega
      · rw [hallowed, hcalls', length_nil]
        split_ifs <;> omega
      · exact hdefined
    · rw [hsame]
      exact h
  | returned bSkip Message =>
    dsimp only
    rcases returned_cases s bSkip Message with hsame | ⟨i, calls, hcalls, ⟨-, hskip⟩ | ⟨-, -, hpass⟩ | ⟨-, -, hgone⟩⟩
    · rw [hsame]
      exact h
    · have hopen : s.calls ≠ [] := by
        rw [hcalls]
        exact cons_ne_nil _ _
      rw [hskip]
      exact finished_burst hburst (setMessage_burst h hopen i Message) hdefined hopen _
    · have hcredit := h.credit
      rw [hcalls] at hcredit
      rw [hpass]
      exact ⟨h.flood, h.burst, h.nonneg, hcredit, fun hnil => absurd hnil (cons_ne_nil _ _)⟩
    · rw [hgone]
      refine ⟨h.flood, h.burst, h.nonneg, h.credit, fun hnil => ?_⟩
      rw [hcalls] at hnil
      cases hnil
  | returnedRaw bSkip onLine =>
    dsimp only
    rcases returnedRaw_cases s bSkip onLine with hsame | ⟨i, sLine, calls, hcalls, hback⟩
    · rw [hsame]
      exact h
    · rw [hback]
      refine finished_burst hburst h hdefined ?_ _
      rw [hcalls]
      exact cons_ne_nil _ _
  | caps bMessageTagCap ssSupportedTags => exact ⟨h.flood, h.burst, h.nonneg, h.credit, h.rest⟩

theorem burstInv_initial : BurstInv uFloodBurst (initial uFloodBurst true) := by
  have hshort : short uFloodBurst.toNat = uFloodBurst.toNat := by
    apply short_eq
    · omega
    · omega
  have hallowed : (initial uFloodBurst true).iSendsAllowed = uFloodBurst.toNat := by rw [initial, hshort]
  refine ⟨rfl, rfl, ?_, ?_, fun _ => ⟨.inl rfl, rfl⟩⟩
  · rw [hallowed]
    omega
  · have hcalls : (initial uFloodBurst true).calls.length = 0 := rfl
    rw [hallowed, hcalls]
    omega

theorem run_burst (acts : List SendAct) :
    BurstInv uFloodBurst (runBurst uFloodBurst acts) := by
  unfold runBurst
  induction acts using List.reverseRecOn with
  | nil => exact burstInv_initial hburst
  | append_singleton acts a ih =>
    rw [foldl_concat]
    exact exec_burst hburst ih a

omit hburst

/-! ## The lines written -/

/-- what was allowed to the open calls or may still be sent -/
def credit (s : SendQueue) : ℤ := s.iSendsAllowed + s.calls.length

/-- how far a run goes from `s` to `s'`: each line written was allowed before, or by a tick -/
def Spends (s s' : SendQueue) : Prop :=
  ∃ log, s'.log = log ++ s.log ∧ writes log + s'.credit ≤ s.credit + ticks log

theorem Spends.quiet {s' : SendQueue} {log : List SendEvent} (hlog : s'.log = log ++ s.log)
    (hquiet : writes log = 0 ∧ ticks log = 0) (hallowed : s'.iSendsAllowed = s.iSendsAllowed)
    (hcalls : s'.calls = s.calls) :
    Spends s s' := by
  refine ⟨log, hlog, ?_⟩
  rw [hquiet.1, hquiet.2, credit, credit, hallowed, hcalls]
  omega

theorem Spends.refl (s : SendQueue) : Spends s s := Spends.quiet (nil_append _).symm ⟨rfl, rfl⟩ rfl rfl

theorem Spends.trans {s' s'' : SendQueue} (h : Spends s s') (h' : Spends s' s'') : Spends s s'' := by
  obtain ⟨log, hlog, hspent⟩ := h
  obtain ⟨log', hlog', hspent'⟩ := h'
  have hwrites : writes (log' ++ log) = writes log' + writes log := by
    rw [writes, flatMap_append, length_append]
    rfl
  have hticks : ticks (log' ++ log) = ticks log' + ticks log := count_append
  refine ⟨log' ++ log, ?_, ?_⟩
  · rw [hlog', hlog, append_assoc]
  · rw [hwrites, hticks]
    push_cast
    omega

/-- **A call of the hook** costs one of what may be sent, and is open. -/
theorem trySend_spends (hflood : s.bFloodProtection = true) (hbound : s.iSendsAllowed < 2 ^ 15) :
    Spends s s.trySend := by
  by_cases hblocked : s.Blocked
  · rw [trySend_blocked hblocked]
    exact Spends.refl s
  · obtain ⟨i, Message, q, -, hsend⟩ := trySend_open hblocked
    obtain ⟨-, hshort⟩ := spend_one hflood hbound hblocked
    rw [hsend, hshort]
    refine ⟨[.hooked i], rfl, ?_⟩
    have hnone : writes [.hooked i] = 0 ∧ ticks [.hooked i] = 0 := ⟨rfl, rfl⟩
    rw [hnone.1, hnone.2, credit, credit]
    dsimp only
    rw [length_cons]
    push_cast
    omega

theorem popFront_spends (s : SendQueue) : Spends s s.popFront := by
  unfold popFront
  cases s.vSendQueue with
  | nil => exact Spends.refl s
  | cons e q => exact ⟨[.removed e.1], rfl, le_of_eq (add_comm _ _)⟩

include hburst

theorem BurstInv.lt (h : BurstInv uFloodBurst s) :
    s.iSendsAllowed < 2 ^ 15 := by
  have hcredit := h.credit
  omega

theorem allowOne_spends (h : BurstInv uFloodBurst s) : Spends s s.allowOne := by
  have hallowed : s.allowOne.iSendsAllowed ≤ s.iSendsAllowed + 1 := by
    rw [allowOne_allowed hburst h]
    split_ifs <;> omega
  have hcalls : s.allowOne.calls = s.calls := rfl
  have hone : writes [.tick] = 0 ∧ ticks [.tick] = 1 := ⟨rfl, rfl⟩
  refine ⟨[.tick], rfl, ?_⟩
  rw [hone.1, hone.2, credit, credit, hcalls]
  push_cast
  omega

/-- **A call that is over** gives up what it used, for the line it writes. -/
theorem finished_spends (h : BurstInv uFloodBurst s) (hcalls : s.calls ≠ [])
    {e : SendEvent} (he : writes [e] ≤ 1 ∧ ticks [e] = 0) : Spends s (s.finished e) := by
  rcases finished_cases s e with ⟨-, hgone⟩ | ⟨-, hback⟩
  · rw [hgone]
    exact ⟨[], rfl, le_of_eq (add_comm _ _)⟩
  · have hlen : s.calls.tail.length + 1 = s.calls.length := by
      rw [length_tail]
      exact Nat.sub_add_cancel (length_pos_iff.2 hcalls)
    set s1 : SendQueue := { s with calls := s.calls.tail, log := e :: s.log } with hs1
    have hgive : Spends s s1 := by
      refine ⟨[e], rfl, ?_⟩
      rw [he.2, credit, credit, hs1]
      dsimp only
      omega
    obtain ⟨h1, -, h3, -, -⟩ := popFront_frame s1
    have hbound := h.lt hburst
    have hlt : s1.popFront.iSendsAllowed < 2 ^ 15 := h3.trans_lt hbound
    rw [hback]
    exact (hgive.trans (popFront_spends s1)).trans (trySend_spends (h1.trans h.flood) hlt)

theorem exec_spends (h : BurstInv uFloodBurst s) (a : SendAct) : Spends s (s.exec a) := by
  have hlt := h.lt hburst
  rw [exec.eq_def]
  by_cases hdangling : s.bDangling = true
  · rw [if_pos hdangling]
    exact Spends.refl s
  rw [if_neg hdangling]
  cases a with
  | putIRC Message =>
    have hput : Spends s (s.pushBack Message) := ⟨[.queued s.uNext], rfl, le_of_eq (add_comm _ _)⟩
    exact hput.trans (trySend_spends h.flood hlt)
  | putIRCQuick Message =>
    have hput : Spends s (s.emplaceFront Message) := ⟨[.queuedFront s.uNext], rfl, le_of_eq (add_comm _ _)⟩
    exact hput.trans (trySend_spends h.flood hlt)
  | runJob =>
    dsimp only
    rcases runJob_cases s with ⟨-, hrun⟩ | hsame
    · have hlt' : s.allowOne.iSendsAllowed < 2 ^ 15 := by
        rw [allowOne_allowed hburst h]
        split_ifs <;> omega
      have hflood : s.allowOne.bFloodProtection = true := h.flood
      rw [hrun]
      exact (allowOne_spends hburst h).trans (trySend_spends hflood hlt')
    · rw [hsame]
      exact Spends.refl s
  | returned bSkip Message =>
    dsimp only
    rcases returned_cases s bSkip Message with hsame | ⟨i, calls, hcalls, ⟨-, hskip⟩ | ⟨-, -, hpass⟩ | ⟨-, -, hgone⟩⟩
    · rw [hsame]
      exact Spends.refl s
    · have hopen : s.calls ≠ [] := by
        rw [hcalls]
        exact cons_ne_nil _ _
      rw [hskip]
      exact finished_spends hburst (setMessage_burst h hopen i Message) hopen ⟨Nat.zero_le _, rfl⟩
    · rw [hpass]
      refine ⟨[.passed i], rfl, ?_⟩
      rw [credit, credit, hcalls]
      exact le_of_eq (add_comm _ _)
    · rw [hgone]
      exact ⟨[], rfl, le_of_eq (add_comm _ _)⟩
  | returnedRaw bSkip onLine =>
    dsimp only
    rcases returnedRaw_cases s bSkip onLine with hsame | ⟨i, sLine, calls, hcalls, hback⟩
    · rw [hsame]
      exact Spends.refl s
    · rw [hback]
      refine finished_spends hburst h ?_ ?_
      · rw [hcalls]
        exact cons_ne_nil _ _
      · cases bSkip with
        | true => exact ⟨Nat.zero_le _, rfl⟩
        | false => exact ⟨le_refl _, rfl⟩
  | caps bMessageTagCap ssSupportedTags => exact ⟨[], rfl, le_of_eq (add_comm _ _)⟩

theorem run_spends (h : BurstInv uFloodBurst s) (stretch : List SendAct) : Spends s (stretch.foldl exec s) := by
  induction stretch generalizing s with
  | nil => exact Spends.refl s
  | cons a stretch ih => exact (exec_spends hburst h a).trans (ih (exec_burst hburst h a))

omit hburst

/-! ## The next tick -/

/-- while nothing may be sent, a message whose hook is open stays where it is -/
def Held (i : ℕ) (hook : EHook) (s : SendQueue) : Prop :=
  s.bDangling = false ∧ s.calls = [(i, hook)] ∧ i ∈ s.ids ∧ s.bFloodProtection = true ∧ s.iSendsAllowed ≤ 0

theorem inside_held {i : ℕ} {hook : EHook} (h : Held i hook s) {a : SendAct} (ha : a.Inside) :
    Held i hook (s.exec a) ∧ ∃ log, (s.exec a).log = log ++ s.log := by
  obtain ⟨hdefined, hcalls, hmem, hflood, hallowed⟩ := h
  rw [exec.eq_def, if_neg (go_of_defined hdefined)]
  cases a with
  | putIRC Message =>
    dsimp only
    have hblocked : (s.pushBack Message).Blocked := .inr ⟨hflood, hallowed⟩
    have hids : i ∈ (s.pushBack Message).ids := by
      rw [ids, pushBack, map_append]
      exact mem_append_left _ hmem
    rw [putIRC, trySend_blocked hblocked]
    exact ⟨⟨hdefined, hcalls, hids, hflood, hallowed⟩, [.queued s.uNext], rfl⟩
  | putIRCQuick Message =>
    dsimp only
    have hblocked : (s.emplaceFront Message).Blocked := .inr ⟨hflood, hallowed⟩
    rw [putIRCQuick, trySend_blocked hblocked]
    exact ⟨⟨hdefined, hcalls, mem_cons_of_mem _ hmem, hflood, hallowed⟩, [.queuedFront s.uNext], rfl⟩
  | caps bMessageTagCap ssSupportedTags => exact ⟨⟨hdefined, hcalls, hmem, hflood, hallowed⟩, [], rfl⟩
  | runJob => exact absurd ha id
  | returned bSkip Message => exact absurd ha id
  | returnedRaw bSkip onLine => exact absurd ha id

theorem inside_run_held {i : ℕ} {hook : EHook} (h : Held i hook s) {inside : List SendAct} (ha : ∀ a ∈ inside, a.Inside) :
    Held i hook (inside.foldl exec s) ∧ ∃ log, (inside.foldl exec s).log = log ++ s.log := by
  induction inside generalizing s with
  | nil => exact ⟨h, [], rfl⟩
  | cons a inside ih =>
    obtain ⟨hstep, log, hlog⟩ := inside_held h (ha a mem_cons_self)
    obtain ⟨hrun, log', hlog'⟩ := ih hstep fun x hx => ha x (mem_cons_of_mem _ hx)
    refine ⟨hrun, log' ++ log, ?_⟩
    rw [foldl_cons, hlog', hlog, append_assoc]

theorem popFront_log (s : SendQueue) : ∃ log, s.popFront.log = log ++ s.log := by
  unfold popFront
  cases s.vSendQueue with
  | nil => exact ⟨[], rfl⟩
  | cons e q => exact ⟨[.removed e.1], rfl⟩

theorem trySend_log (s : SendQueue) : ∃ log, s.trySend.log = log ++ s.log := by
  by_cases hblocked : s.Blocked
  · rw [trySend_blocked hblocked]
    exact ⟨[], rfl⟩
  · obtain ⟨i, Message, q, -, hsend⟩ := trySend_open hblocked
    rw [hsend]
    exact ⟨[.hooked i], rfl⟩

theorem held_passed {i : ℕ} (h : Held i .OnSendToIRCMessage s) (Message : CMessage) :
    Held i (.OnSendToIRC (Message.toString CMessage.IncludeAll)) (s.exec (.returned false Message)) ∧
      (s.exec (.returned false Message)).log = .passed i :: s.log := by
  obtain ⟨hdefined, hcalls, hmem, hflood, hallowed⟩ := h
  have hpass : s.exec (.returned false Message) = { s.setMessage i Message with
      calls := [(i, .OnSendToIRC (Message.toString CMessage.IncludeAll))]
      log := .passed i :: s.log } := by
    rw [exec.eq_def, if_neg (go_of_defined hdefined)]
    dsimp only
    rw [returned.eq_def, hcalls]
    exact if_pos hmem
  have hids : i ∈ (s.setMessage i Message).ids := by
    rw [ids_setMessage]
    exact hmem
  rw [hpass]
  exact ⟨⟨hdefined, rfl, hids, hflood, hallowed⟩, rfl⟩

theorem held_written {i : ℕ} {sLine : Option CString} (h : Held i (.OnSendToIRC sLine) s) (onLine : CString → CString) :
    ∃ log, (s.exec (.returnedRaw false onLine)).log = log ++ s.log ∧ .wrote i (sLine.map onLine) ∈ log := by
  obtain ⟨hdefined, hcalls, hmem, -, -⟩ := h
  have hne : s.vSendQueue ≠ [] := by
    intro hempty
    rw [ids, hempty] at hmem
    cases hmem
  have hback : s.exec (.returnedRaw false onLine) = s.finished (.wrote i (sLine.map onLine)) := by
    rw [exec.eq_def, if_neg (go_of_defined hdefined)]
    dsimp only
    rw [returnedRaw.eq_def, hcalls]
    rfl
  rw [hback, ((finished_cases s _).resolve_left fun h0 => hne h0.1).2]
  set s1 : SendQueue := { s with calls := s.calls.tail, log := .wrote i (sLine.map onLine) :: s.log }
  obtain ⟨log, hlog⟩ := trySend_log s1.popFront
  obtain ⟨log', hlog'⟩ := popFront_log s1
  refine ⟨log ++ (log' ++ [.wrote i (sLine.map onLine)]), ?_, ?_⟩
  · rw [hlog, hlog', append_assoc, append_assoc]
    rfl
  · apply mem_append_right
    apply mem_append_right
    exact mem_singleton_self _

include hburst

/-- **The next tick** hands over the message at the front. -/
theorem tick_holds (hpos : 0 < uFloodBurst.toNat) (h : BurstInv uFloodBurst s)
    (hcalls : s.calls = []) (hne : s.vSendQueue ≠ []) :
    ∃ i ∈ s.ids.head?, Held i .OnSendToIRCMessage (s.exec .runJob) ∧ ∃ log, (s.exec .runJob).log = log ++ s.log := by
  obtain ⟨hblocked, hdefined⟩ := h.rest hcalls
  -- nothing may be sent, or the message would not wait
  have hallowed : s.iSendsAllowed = 0 := by
    rcases hblocked with hempty | ⟨-, hle⟩
    · exact absurd hempty hne
    · exact le_antisymm hle h.nonneg
  have hone : s.allowOne.iSendsAllowed = 1 := by
    rw [allowOne_allowed hburst h, hallowed, if_pos (by omega)]
    rfl
  have hrun : (s.bFloodProtection && s.calls.isEmpty) = true := by
    rw [h.flood, hcalls]
    rfl
  have hopen : ¬s.allowOne.Blocked := by
    intro hblocked
    rcases hblocked with hempty | ⟨-, hle⟩
    · exact hne hempty
    · rw [hone] at hle
      exact absurd hle (by decide)
  obtain ⟨i, Message, q, hq, hsend⟩ := trySend_open hopen
  have hq' : s.vSendQueue = (i, Message) :: q := hq
  have hstep : s.exec .runJob = s.allowOne.trySend := by
    rw [exec.eq_def, if_neg (go_of_defined hdefined)]
    dsimp only
    rw [runJob, if_pos hrun]
  rw [hstep, hsend]
  refine ⟨i, ?_, ⟨hdefined, ?_, mem_cons_self, h.flood, ?_⟩, [.hooked i, .tick], rfl⟩
  · rw [ids, hq']
    rfl
  · exact congrArg ((i, EHook.OnSendToIRCMessage) :: ·) hcalls
  · dsimp only
    rw [hone]
    decide

/-! ## The bursts that keep the promise -/

theorem promised : Promised uFloodBurst := by
  constructor
  · intro acts
    have hinv := run_burst hburst acts
    have hcredit := hinv.credit
    exact ⟨hinv.nonneg, by omega⟩
  · intro acts stretch
    have hinv := run_burst hburst acts
    obtain ⟨log, hlog, hspent⟩ := run_spends hburst hinv stretch
    have hend := (run_burst hburst (acts ++ stretch)).nonneg
    have hrun : runBurst uFloodBurst (acts ++ stretch) =
      stretch.foldl exec (runBurst uFloodBurst acts) := foldl_append
    rw [← hrun] at hlog hspent
    refine ⟨log, hlog, ?_⟩
    have hcredit := hinv.credit
    unfold credit at hspent
    omega
  · intro hpos acts hcalls hne
    obtain ⟨i, hi, hheld, log, hlog⟩ := tick_holds hburst hpos (run_burst hburst acts) hcalls hne
    refine ⟨i, hi, fun inside insideRaw hinside hinsideRaw Message onLine => ?_⟩
    obtain ⟨hheld', log', hlog'⟩ := inside_run_held hheld hinside
    obtain ⟨hraw, hpassed⟩ := held_passed hheld' Message
    obtain ⟨hraw', log'', hlog''⟩ := inside_run_held hraw hinsideRaw
    obtain ⟨log3, hlog3, hwrote⟩ := held_written hraw' onLine
    refine ⟨log3 ++ (log'' ++ .passed i :: (log' ++ log)), ?_, mem_append_left _ hwrote⟩
    have hrun : runBurst uFloodBurst (acts ++ .runJob :: inside ++ .returned false Message :: insideRaw ++
        [.returnedRaw false onLine]) = (insideRaw.foldl exec ((inside.foldl exec
          ((runBurst uFloodBurst acts).exec .runJob)).exec (.returned false Message))).exec (.returnedRaw false onLine) := by
      rw [runBurst, foldl_concat, foldl_append, foldl_cons, foldl_append, foldl_cons]
      rfl
    rw [hrun, hlog3, hlog'', hpassed, hlog', hlog]
    simp only [append_assoc, cons_append]

omit hburst

/-- **Flood protection** keeps what it promises, exactly for the bursts up to 32767. -/
theorem flood_iff (uFloodBurst : UInt16) : Promised uFloodBurst ↔ uFloodBurst.toNat ≤ 32767 := by
  constructor
  · intro h
    by_contra hlarge
    have hstart := (h.bounds []).1
    have hallowed : (runBurst uFloodBurst []).iSendsAllowed = short uFloodBurst.toNat := by
      rw [runBurst, foldl_nil, initial]
    rw [hallowed] at hstart
    exact absurd (short_burst_neg (not_le.1 hlarge)) (not_lt.2 hstart)
  · exact promised

/-- a burst of 40000 starts at -25536, and nothing is written for as many ticks -/
theorem flood_overflow : ¬ Promised 40000 := by
  intro h
  have hstart := (h.bounds []).1
  have hallowed : (runBurst 40000 []).iSendsAllowed = -25536 := by decide
  rw [hallowed] at hstart
  exact absurd hstart (by decide)

end ZNC.SendQueue
