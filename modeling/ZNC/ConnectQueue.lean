/-
The connect queue of `src/znc.cpp`: `AddNetworkToQueue`, `PauseConnectQueue`, `ResumeConnectQueue` and the runs of
`CConnectQueueTimer`.

A run moves the queue to a local list and works from that. What a connection attempt does meanwhile, it does to the real queue:
it does not see the networks that still wait in the local list. `ResumeConnectQueue` lets the timer go on at once, also while
other pauses are outstanding.

Results:
- `loop_spec`: what a run does to the queue, and which networks it tries;
- `runJob_nodup_iff`: a run leaves a network in the queue twice exactly if one that it leaves over was added by an attempt;
- `queue_kept`: the queue over every run of steps in which this does not happen, no waiting network is deleted and no pause is
  resumed early.
-/
import Mathlib.Tactic

namespace ZNC

open List

namespace ConnectQueue

variable {N C : Type}

/-! ## Model -/

section Model

variable [DecidableEq N]

/-- what is used of `CCron`, which belongs to the socket library: a cron that was started, and whether it gets to run -/
structure CCron (C : Type) where
  start : C
  pause : C → C
  unPause : C → C
  runs : C → Bool

/-- The queue, the timer and the counter of `CZNC`. The last two fields record what has happened: the networks that were deleted,
and how many more pauses there were than resumes. -/
structure CZNC (N C : Type) where
  lpConnectQueue : List N
  pConnectQueueTimer : Option C
  uiConnectPaused : ℕ
  deleted : List N
  outstanding : ℤ
deriving DecidableEq

/-- a call on the queue -/
inductive Call (N : Type) where
  | AddNetworkToQueue (pNetwork : N)
  | PauseConnectQueue
  | ResumeConnectQueue
  | DeleteNetwork (pNetwork : N)
deriving DecidableEq

/-- `pNetwork->Connect()`: the calls that come from inside it, and what it returns -/
structure Attempt (N : Type) where
  calls : List (Call N)
  connected : Bool

namespace CZNC

def init : CZNC N C := ⟨[], none, 0, [], 0⟩

def enableConnectQueue (cron : CCron C) (s : CZNC N C) : CZNC N C :=
  if s.pConnectQueueTimer.isNone ∧ s.uiConnectPaused = 0 ∧ s.lpConnectQueue ≠ [] then
    { s with pConnectQueueTimer := some cron.start }
  else s

def disableConnectQueue (s : CZNC N C) : CZNC N C := { s with pConnectQueueTimer := none }

def pauseConnectQueue (cron : CCron C) (s : CZNC N C) : CZNC N C :=
  { s with
    uiConnectPaused := (s.uiConnectPaused + 1) % 2 ^ 32
    pConnectQueueTimer := s.pConnectQueueTimer.map cron.pause
    outstanding := s.outstanding + 1 }

def resumeConnectQueue (cron : CCron C) (s : CZNC N C) : CZNC N C :=
  -- the counter is unsigned
  let s := { s with uiConnectPaused := (s.uiConnectPaused + (2 ^ 32 - 1)) % 2 ^ 32, outstanding := s.outstanding - 1 }
  let s := s.enableConnectQueue cron
  { s with pConnectQueueTimer := s.pConnectQueueTimer.map cron.unPause }

def addNetworkToQueue (cron : CCron C) (s : CZNC N C) (pNetwork : N) : CZNC N C :=
  if pNetwork ∈ s.lpConnectQueue then s
  else { s with lpConnectQueue := s.lpConnectQueue ++ [pNetwork] }.enableConnectQueue cron

/-- `CIRCNetwork::~CIRCNetwork` -/
def deleteNetwork (s : CZNC N C) (pNetwork : N) : CZNC N C :=
  { s with
    lpConnectQueue := s.lpConnectQueue.filter (· ≠ pNetwork)
    deleted := pNetwork :: s.deleted }

def apply (cron : CCron C) (s : CZNC N C) : Call N → CZNC N C
  | .AddNetworkToQueue pNetwork => s.addNetworkToQueue cron pNetwork
  | .PauseConnectQueue => s.pauseConnectQueue cron
  | .ResumeConnectQueue => s.resumeConnectQueue cron
  | .DeleteNetwork pNetwork => s.deleteNetwork pNetwork

def applyAll (cron : CCron C) (s : CZNC N C) (calls : List (Call N)) : CZNC N C := calls.foldl (apply cron) s

/-- The loop of `RunJob` over the local list, from its `k`-th attempt on: the state after it, the networks tried, and what is left
of the list. There is no result when `Connect` is called on a network that was deleted. -/
def loop (cron : CCron C) (connect : ℕ → Attempt N) : ℕ → CZNC N C → List N → Option (CZNC N C × List N × List N)
  | _, s, [] => some (s, [], [])
  | k, s, pNetwork :: ConnectionQueue =>
    if pNetwork ∈ s.deleted then none
    else
      let s := s.applyAll cron (connect k).calls
      if (connect k).connected then some (s, [pNetwork], ConnectionQueue)
      else (loop cron connect (k + 1) s ConnectionQueue).map fun r => (r.1, pNetwork :: r.2.1, r.2.2)

def runJob (cron : CCron C) (connect : ℕ → Attempt N) (s : CZNC N C) : Option (CZNC N C × List N) :=
  (loop cron connect 0 { s with lpConnectQueue := [] } s.lpConnectQueue).map fun r =>
    let s := { r.1 with lpConnectQueue := r.2.2 ++ r.1.lpConnectQueue }
    (if s.lpConnectQueue = [] then s.disableConnectQueue else s, r.2.1)

/-- the socket manager runs the timer when its time has come -/
def fires (cron : CCron C) (s : CZNC N C) : Bool := s.pConnectQueueTimer.any cron.runs

end CZNC

/-- a call, or the time of the timer has come -/
inductive Op (N : Type) where
  | call (c : Call N)
  | time (connect : ℕ → Attempt N)

/-- a step that was taken: whether the timer ran, which networks it tried, and the calls that were made -/
structure Step (N C : Type) where
  before : CZNC N C
  ran : Bool
  tried : List N
  calls : List (Call N)
  after : CZNC N C

def CZNC.step (cron : CCron C) (s : CZNC N C) : Op N → Option (Step N C)
  | .call c => some ⟨s, false, [], [c], s.apply cron c⟩
  | .time connect =>
    if s.fires cron then
      (s.runJob cron connect).map fun r =>
        ⟨s, true, r.2, (List.range r.2.length).flatMap fun k => (connect k).calls, r.1⟩
    else some ⟨s, false, [], [], s⟩

def CZNC.steps (cron : CCron C) (s : CZNC N C) : List (Op N) → Option (List (Step N C))
  | [] => some []
  | op :: ops => (s.step cron op).bind fun t => (t.after.steps cron ops).map (t :: ·)

/-- what is asked of a step -/
structure Step.Sound (t : Step N C) : Prop where
  nodup : t.after.lpConnectQueue.Nodup
  /-- a network leaves the queue by an attempt or by its deletion -/
  kept : ∀ pNetwork ∈ t.before.lpConnectQueue,
    pNetwork ∈ t.after.lpConnectQueue ∨ pNetwork ∈ t.tried ∨ pNetwork ∈ t.after.deleted
  /-- one that is added leaves it by its deletion only -/
  added : ∀ pNetwork, Call.AddNetworkToQueue pNetwork ∈ t.calls →
    pNetwork ∈ t.after.lpConnectQueue ∨ pNetwork ∈ t.after.deleted
  once : t.tried.Nodup
  unpaused : t.ran = true → t.before.outstanding ≤ 0

/-! ## Conditions -/

/-- how many networks of a list a run tries, from its `k`-th attempt on -/
def made (connect : ℕ → Attempt N) : ℕ → List N → ℕ
  | _, [] => 0
  | k, _ :: q => if (connect k).connected then 1 else made connect (k + 1) q + 1

namespace CZNC

/-- a call while the networks `waiting` are in the local list of a run -/
def Fine (s : CZNC N C) (waiting : List N) : Call N → Prop
  | .AddNetworkToQueue pNetwork => pNetwork ∉ s.deleted
  | .PauseConnectQueue => s.outstanding + 1 < 2 ^ 32
  | .ResumeConnectQueue => s.pConnectQueueTimer = none ∨ s.outstanding ≤ 1
  | .DeleteNetwork pNetwork => pNetwork ∉ waiting

def FineAll (cron : CCron C) (waiting : List N) : CZNC N C → List (Call N) → Prop
  | _, [] => True
  | s, c :: calls => s.Fine waiting c ∧ FineAll cron waiting (s.apply cron c) calls

/-- the calls of the attempts that a run makes -/
def LoopFine (cron : CCron C) (connect : ℕ → Attempt N) : ℕ → CZNC N C → List N → Prop
  | _, _, [] => True
  | k, s, _ :: waiting =>
    FineAll cron waiting s (connect k).calls ∧
      ((connect k).connected = false → LoopFine cron connect (k + 1) (s.applyAll cron (connect k).calls) waiting)

/-- no network that a run leaves over is added in it -/
def LeavesFresh (connect : ℕ → Attempt N) (q : List N) : Prop :=
  ∀ k < made connect 0 q, ∀ pNetwork ∈ q.drop (made connect 0 q), Call.AddNetworkToQueue pNetwork ∉ (connect k).calls

def OpFine (cron : CCron C) (s : CZNC N C) : Op N → Prop
  | .call c => s.Fine [] c
  | .time connect =>
    s.fires cron = true →
      LoopFine cron connect 0 { s with lpConnectQueue := [] } s.lpConnectQueue ∧ LeavesFresh connect s.lpConnectQueue

def RunFine (cron : CCron C) (s : CZNC N C) : List (Op N) → Prop
  | [] => True
  | op :: ops => s.OpFine cron op ∧ (s.step cron op).elim True fun t => t.after.RunFine cron ops

instance Fine.decidable (s : CZNC N C) (waiting : List N) : (c : Call N) → Decidable (s.Fine waiting c)
  | .AddNetworkToQueue pNetwork => inferInstanceAs (Decidable (pNetwork ∉ s.deleted))
  | .PauseConnectQueue => inferInstanceAs (Decidable (s.outstanding + 1 < 2 ^ 32))
  | .ResumeConnectQueue => decidable_of_iff (s.pConnectQueueTimer.isNone ∨ s.outstanding ≤ 1)
      (by rw [Option.isNone_iff_eq_none]; rfl)
  | .DeleteNetwork pNetwork => inferInstanceAs (Decidable (pNetwork ∉ waiting))

instance FineAll.decidable (cron : CCron C) (waiting : List N) :
    (s : CZNC N C) → (calls : List (Call N)) → Decidable (FineAll cron waiting s calls)
  | _, [] => isTrue trivial
  | s, c :: calls =>
    have := FineAll.decidable cron waiting (s.apply cron c) calls
    inferInstanceAs (Decidable (s.Fine waiting c ∧ FineAll cron waiting (s.apply cron c) calls))

instance LoopFine.decidable (cron : CCron C) (connect : ℕ → Attempt N) :
    (k : ℕ) → (s : CZNC N C) → (q : List N) → Decidable (LoopFine cron connect k s q)
  | _, _, [] => isTrue trivial
  | k, s, _ :: waiting =>
    have := LoopFine.decidable cron connect (k + 1) (s.applyAll cron (connect k).calls) waiting
    inferInstanceAs (Decidable (FineAll cron waiting s (connect k).calls ∧
      ((connect k).connected = false → LoopFine cron connect (k + 1) (s.applyAll cron (connect k).calls) waiting)))

instance OpFine.decidable (cron : CCron C) (s : CZNC N C) : (op : Op N) → Decidable (s.OpFine cron op)
  | .call c => inferInstanceAs (Decidable (s.Fine [] c))
  | .time connect =>
    inferInstanceAs (Decidable (s.fires cron = true →
      LoopFine cron connect 0 { s with lpConnectQueue := [] } s.lpConnectQueue ∧
        ∀ k < made connect 0 s.lpConnectQueue, ∀ pNetwork ∈ s.lpConnectQueue.drop (made connect 0 s.lpConnectQueue),
          Call.AddNetworkToQueue pNetwork ∉ (connect k).calls))

instance RunFine.decidable (cron : CCron C) : (s : CZNC N C) → (ops : List (Op N)) → Decidable (s.RunFine cron ops)
  | _, [] => isTrue trivial
  | s, op :: ops =>
    have : Decidable ((s.step cron op).elim True fun t => t.after.RunFine cron ops) :=
      match s.step cron op with
      | none => isTrue trivial
      | some t => RunFine.decidable cron t.after ops
    inferInstanceAs (Decidable (s.OpFine cron op ∧ (s.step cron op).elim True fun t => t.after.RunFine cron ops))

end CZNC

end Model

namespace CZNC

/-! ## Invariant -/

/-- what holds while the networks `waiting` are in the local list of a run -/
structure Inv (cron : CCron C) (waiting : List N) (s : CZNC N C) : Prop where
  nodup : s.lpConnectQueue.Nodup
  alive : ∀ pNetwork ∈ s.lpConnectQueue, pNetwork ∉ s.deleted
  waits : ∀ pNetwork ∈ waiting, pNetwork ∉ s.deleted
  counter : (s.uiConnectPaused : ℤ) = s.outstanding % 2 ^ 32
  small : s.outstanding < 2 ^ 32
  paused : 0 < s.outstanding → s.fires cron = false

variable {cron : CCron C} {waiting : List N} {s : CZNC N C}

theorem init_inv : (init : CZNC N C).Inv cron [] where
  nodup := nodup_nil
  alive := by simp [init]
  waits := by simp
  counter := rfl
  small := by
    change (0 : ℤ) < 2 ^ 32
    decide
  paused h := absurd h (lt_irrefl 0)

theorem Inv.mono {waiting' : List N} (h : s.Inv cron waiting) (hsub : waiting' ⊆ waiting) : s.Inv cron waiting' :=
  { h with waits := fun p hp => h.waits p (hsub hp) }

theorem Inv.counter_ne_zero (h : s.Inv cron waiting) (hpos : 0 < s.outstanding) : s.uiConnectPaused ≠ 0 := by
  have := h.counter
  have := h.small
  omega

theorem Inv.enableConnectQueue (h : s.Inv cron waiting) : (s.enableConnectQueue cron).Inv cron waiting := by
  unfold CZNC.enableConnectQueue
  split_ifs with hc
  · exact { h with paused := fun hpos => absurd hc.2.1 (h.counter_ne_zero hpos) }
  · exact h

@[simp] theorem enableConnectQueue_queue : (s.enableConnectQueue cron).lpConnectQueue = s.lpConnectQueue := by
  unfold CZNC.enableConnectQueue
  split_ifs <;> rfl

@[simp] theorem enableConnectQueue_deleted : (s.enableConnectQueue cron).deleted = s.deleted := by
  unfold CZNC.enableConnectQueue
  split_ifs <;> rfl

@[simp] theorem enableConnectQueue_outstanding : (s.enableConnectQueue cron).outstanding = s.outstanding := by
  unfold CZNC.enableConnectQueue
  split_ifs <;> rfl

@[simp] theorem enableConnectQueue_paused : (s.enableConnectQueue cron).uiConnectPaused = s.uiConnectPaused := by
  unfold CZNC.enableConnectQueue
  split_ifs <;> rfl

theorem Inv.pauseConnectQueue (h : s.Inv cron waiting) (hpause : ∀ c, cron.runs (cron.pause c) = false)
    (hsmall : s.outstanding + 1 < 2 ^ 32) : (s.pauseConnectQueue cron).Inv cron waiting where
  nodup := h.nodup
  alive := h.alive
  waits := h.waits
  counter := by
    have := h.counter
    simp only [CZNC.pauseConnectQueue]
    omega
  small := hsmall
  paused _ := by
    simp only [fires, CZNC.pauseConnectQueue]
    cases s.pConnectQueueTimer with
    | none => rfl
    | some c => simp [hpause c]

theorem Inv.resumeConnectQueue (h : s.Inv cron waiting) (hearly : s.pConnectQueueTimer = none ∨ s.outstanding ≤ 1) :
    (s.resumeConnectQueue cron).Inv cron waiting := by
  have hcounter : (((s.uiConnectPaused + (2 ^ 32 - 1)) % 2 ^ 32 : ℕ) : ℤ) = (s.outstanding - 1) % 2 ^ 32 := by
    have := h.counter
    omega
  refine ⟨?_, ?_, ?_, ?_, ?_, ?_⟩
  · simpa [CZNC.resumeConnectQueue] using h.nodup
  · simpa [CZNC.resumeConnectQueue] using h.alive
  · simpa [CZNC.resumeConnectQueue] using h.waits
  · simpa only [CZNC.resumeConnectQueue, enableConnectQueue_paused, enableConnectQueue_outstanding] using hcounter
  · have := h.small
    simp only [CZNC.resumeConnectQueue, enableConnectQueue_outstanding]
    omega
  · intro hpos
    simp only [CZNC.resumeConnectQueue, enableConnectQueue_outstanding] at hpos
    -- there was no timer, and none is started
    have hnone : s.pConnectQueueTimer = none := hearly.resolve_right (by omega)
    have hne : (s.uiConnectPaused + (2 ^ 32 - 1)) % 2 ^ 32 ≠ 0 := by
      have := h.small
      omega
    have hcond : ∀ q : List N,
      ¬((none : Option C).isNone = true ∧ (s.uiConnectPaused + (2 ^ 32 - 1)) % 2 ^ 32 = 0 ∧ q ≠ []) :=
      fun q hq => hne hq.2.1
    simp only [fires, CZNC.resumeConnectQueue, CZNC.enableConnectQueue, hnone, if_neg (hcond _)]
    rfl

variable [DecidableEq N]

theorem Inv.addNetworkToQueue (h : s.Inv cron waiting) {pNetwork : N} (hp : pNetwork ∉ s.deleted) :
    (s.addNetworkToQueue cron pNetwork).Inv cron waiting := by
  unfold CZNC.addNetworkToQueue
  split_ifs with hm
  · exact h
  · apply Inv.enableConnectQueue
    refine { h with nodup := ?_, alive := ?_ }
    · exact h.nodup.append (nodup_singleton _) (disjoint_singleton.2 hm)
    · intro p hmem
      rcases mem_append.1 hmem with hmem | hmem
      · exact h.alive p hmem
      · exact mem_singleton.1 hmem ▸ hp

theorem Inv.deleteNetwork (h : s.Inv cron waiting) {pNetwork : N} (hp : pNetwork ∉ waiting) :
    (s.deleteNetwork pNetwork).Inv cron waiting where
  nodup := h.nodup.filter _
  alive p hmem := by
    obtain ⟨hmem, hne⟩ := mem_filter.1 hmem
    exact not_mem_cons_of_ne_of_not_mem (of_decide_eq_true hne) (h.alive p hmem)
  waits p hmem := not_mem_cons_of_ne_of_not_mem (fun he => hp (he ▸ hmem)) (h.waits p hmem)
  counter := h.counter
  small := h.small
  paused := h.paused

theorem Inv.apply (h : s.Inv cron waiting) (hpause : ∀ c, cron.runs (cron.pause c) = false) {c : Call N}
    (hc : s.Fine waiting c) : (s.apply cron c).Inv cron waiting := by
  cases c with
  | AddNetworkToQueue pNetwork => exact h.addNetworkToQueue hc
  | PauseConnectQueue => exact h.pauseConnectQueue hpause hc
  | ResumeConnectQueue => exact h.resumeConnectQueue hc
  | DeleteNetwork pNetwork => exact h.deleteNetwork hc

theorem Inv.applyAll (hpause : ∀ c, cron.runs (cron.pause c) = false) {calls : List (Call N)} :
    ∀ {s : CZNC N C}, s.Inv cron waiting → FineAll cron waiting s calls → (s.applyAll cron calls).Inv cron waiting := by
  induction calls with
  | nil =>
    intro s h _
    exact h
  | cons c calls ih =>
    intro s h hc
    exact ih (h.apply hpause hc.1) hc.2

/-! ## Runs of the timer -/

theorem queue_apply {p : N} {c : Call N} (h : p ∈ (s.apply cron c).lpConnectQueue) :
    p ∈ s.lpConnectQueue ∨ c = .AddNetworkToQueue p := by
  cases c with
  | AddNetworkToQueue pNetwork =>
    simp only [CZNC.apply, CZNC.addNetworkToQueue] at h
    split_ifs at h with hm
    · exact .inl h
    · rw [enableConnectQueue_queue, mem_append, mem_singleton] at h
      exact h.imp_right fun he => by rw [he]
  | PauseConnectQueue => exact .inl h
  | ResumeConnectQueue => exact .inl (by simpa [CZNC.apply, CZNC.resumeConnectQueue] using h)
  | DeleteNetwork pNetwork => exact .inl (mem_filter.1 h).1

theorem queue_applyAll {calls : List (Call N)} {s : CZNC N C} {p : N} (h : p ∈ (s.applyAll cron calls).lpConnectQueue) :
    p ∈ s.lpConnectQueue ∨ Call.AddNetworkToQueue p ∈ calls := by
  induction calls generalizing s with
  | nil => exact .inl h
  | cons c calls ih =>
    rcases ih h with h | h
    · refine (queue_apply h).imp_right fun he => ?_
      rw [he]
      exact mem_cons_self ..
    · exact .inr (mem_cons_of_mem _ h)

theorem apply_keeps {p : N} {c : Call N} (h : p ∈ s.lpConnectQueue ∨ p ∈ s.deleted ∨ c = .AddNetworkToQueue p) :
    p ∈ (s.apply cron c).lpConnectQueue ∨ p ∈ (s.apply cron c).deleted := by
  cases c with
  | AddNetworkToQueue pNetwork =>
    simp only [CZNC.apply, CZNC.addNetworkToQueue]
    split_ifs with hm
    · rcases h with h | h | h
      · exact .inl h
      · exact .inr h
      · exact .inl (Call.AddNetworkToQueue.inj h ▸ hm)
    · rw [enableConnectQueue_queue, enableConnectQueue_deleted]
      rcases h with h | h | h
      · exact .inl (mem_append_left _ h)
      · exact .inr h
      · exact .inl (mem_append_right _ (Call.AddNetworkToQueue.inj h ▸ mem_singleton_self _))
  | PauseConnectQueue => exact h.imp_right fun h => h.resolve_right (by simp)
  | ResumeConnectQueue =>
    rw [← or_assoc] at h
    simpa [CZNC.apply, CZNC.resumeConnectQueue] using h
  | DeleteNetwork pNetwork =>
    rcases h with h | h | h
    · by_cases hp : p = pNetwork
      · exact .inr (hp ▸ mem_cons_self ..)
      · exact .inl (mem_filter.2 ⟨h, decide_eq_true hp⟩)
    · exact .inr (mem_cons_of_mem _ h)
    · exact absurd h (by simp)

theorem applyAll_keeps {calls : List (Call N)} {s : CZNC N C} {p : N}
    (h : p ∈ s.lpConnectQueue ∨ p ∈ s.deleted ∨ Call.AddNetworkToQueue p ∈ calls) :
    p ∈ (s.applyAll cron calls).lpConnectQueue ∨ p ∈ (s.applyAll cron calls).deleted := by
  induction calls generalizing s with
  | nil => exact h.imp_right fun h => h.resolve_right (by simp)
  | cons c calls ih =>
    apply ih
    rw [← or_assoc]
    rcases h with h | h | h
    · exact .inl (apply_keeps (.inl h))
    · exact .inl (apply_keeps (.inr (.inl h)))
    · rcases mem_cons.1 h with h | h
      · exact .inl (apply_keeps (.inr (.inr h.symm)))
      · exact .inr h

/-- **What the loop of a run does.** It tries as many networks as it takes until one connects, and keeps the rest. What is then in
the real queue was there before or was added by an attempt, and what was there or was added is there unless it was deleted. -/
theorem loop_spec (hpause : ∀ c, cron.runs (cron.pause c) = false) (connect : ℕ → Attempt N) {q : List N} :
    ∀ {k : ℕ} {s : CZNC N C}, s.Inv cron q → LoopFine cron connect k s q →
      ∃ s', loop cron connect k s q = some (s', q.take (made connect k q), q.drop (made connect k q)) ∧
        s'.Inv cron (q.drop (made connect k q)) ∧
        (∀ p ∈ s'.lpConnectQueue, p ∈ s.lpConnectQueue ∨
          ∃ j < made connect k q, Call.AddNetworkToQueue p ∈ (connect (k + j)).calls) ∧
        ∀ p, (p ∈ s.lpConnectQueue ∨ p ∈ s.deleted ∨
          ∃ j < made connect k q, Call.AddNetworkToQueue p ∈ (connect (k + j)).calls) →
            p ∈ s'.lpConnectQueue ∨ p ∈ s'.deleted := by
  induction q with
  | nil =>
    intro k s h _
    refine ⟨s, rfl, h, fun p hp => .inl hp, fun p hp => hp.imp_right fun hp => hp.resolve_right ?_⟩
    rintro ⟨j, hj, _⟩
    exact absurd hj (Nat.not_lt_zero j)
  | cons p q ih =>
    intro k s h hfine
    obtain ⟨hcalls, hrest⟩ := hfine
    have hinv : (s.applyAll cron (connect k).calls).Inv cron q :=
      Inv.applyAll hpause (h.mono (subset_cons_self p q)) hcalls
    rw [loop, if_neg (h.waits p (mem_cons_self ..))]
    cases hconn : (connect k).connected with
    | true =>
      have hmade : made connect k (p :: q) = 1 := by rw [made, if_pos hconn]
      rw [hmade]
      refine ⟨_, rfl, hinv, fun r hr => ?_, fun r hadd => ?_⟩
      · exact (queue_applyAll hr).imp_right fun hadd => ⟨0, Nat.one_pos, hadd⟩
      · refine applyAll_keeps (hadd.imp_right fun hadd => hadd.imp_right ?_)
        rintro ⟨j, hj, hadd⟩
        obtain rfl : j = 0 := by omega
        exact hadd
    | false =>
      have hmade : made connect k (p :: q) = made connect (k + 1) q + 1 := by
        rw [made, if_neg (by simp [hconn])]
      obtain ⟨s', hloop, hinv', honly, hkept⟩ := ih hinv (hrest hconn)
      rw [hmade, drop_succ_cons, take_succ_cons]
      refine ⟨s', ?_, hinv', fun r hr => ?_, fun r hadd => ?_⟩
      · simp only [hloop]
        rfl
      · rcases honly r hr with hr | ⟨j, hj, hadd⟩
        · exact (queue_applyAll hr).imp_right fun hadd => ⟨0, by omega, hadd⟩
        · exact .inr ⟨j + 1, by omega, by rwa [show k + (j + 1) = k + 1 + j by omega]⟩
      · apply hkept r
        -- either it was added by this attempt, or by a later one
        rw [← or_assoc]
        rcases hadd with hq | hdel | ⟨j, hj, hadd⟩
        · exact .inl (applyAll_keeps (.inl hq))
        · exact .inl (applyAll_keeps (.inr (.inl hdel)))
        · cases j with
          | zero => exact .inl (applyAll_keeps (.inr (.inr hadd)))
          | succ j => exact .inr ⟨j, by omega, by rwa [show k + 1 + j = k + (j + 1) by omega]⟩

theorem runJob_spec (hpause : ∀ c, cron.runs (cron.pause c) = false) (connect : ℕ → Attempt N) (h : s.Inv cron [])
    (hfine : LoopFine cron connect 0 { s with lpConnectQueue := [] } s.lpConnectQueue) :
    ∃ s', s.runJob cron connect = some (s', s.lpConnectQueue.take (made connect 0 s.lpConnectQueue)) ∧
      ∃ q, s'.lpConnectQueue = s.lpConnectQueue.drop (made connect 0 s.lpConnectQueue) ++ q ∧
        ({ s' with lpConnectQueue := q } : CZNC N C).Inv cron
          (s.lpConnectQueue.drop (made connect 0 s.lpConnectQueue)) ∧
        (∀ k < made connect 0 s.lpConnectQueue, ∀ p, Call.AddNetworkToQueue p ∈ (connect k).calls →
          p ∈ q ∨ p ∈ s'.deleted) ∧
        (q.Disjoint (s.lpConnectQueue.drop (made connect 0 s.lpConnectQueue)) ↔
          LeavesFresh connect s.lpConnectQueue) := by
  have hlocal : ({ s with lpConnectQueue := [] } : CZNC N C).Inv cron s.lpConnectQueue :=
    { h with nodup := nodup_nil, alive := by simp, waits := h.alive }
  obtain ⟨r, hloop, hinv, honly, hkept⟩ := loop_spec hpause connect hlocal hfine
  have hadds : ∀ k < made connect 0 s.lpConnectQueue, ∀ p, Call.AddNetworkToQueue p ∈ (connect k).calls →
      p ∈ r.lpConnectQueue ∨ p ∈ r.deleted :=
    fun k hk p hadd => hkept p (.inr (.inr ⟨k, hk, by rwa [Nat.zero_add]⟩))
  simp only [runJob, hloop, Option.map_some]
  refine ⟨_, rfl, r.lpConnectQueue, ?_, ?_, ?_, ⟨?_, ?_⟩⟩
  · split_ifs <;> rfl
  · split_ifs with hempty
    · exact { hinv with paused := fun _ => rfl }
    · exact hinv
  · split_ifs <;> exact hadds
  · intro hdis k hk p hp hadd
    exact hdis ((hadds k hk p hadd).resolve_right (hinv.waits p hp)) hp
  · intro hfresh p hp hleft
    obtain ⟨k, hk, hadd⟩ := (honly p hp).resolve_left (by simp)
    exact hfresh k hk p hleft (by rwa [Nat.zero_add] at hadd)

theorem runJob_nodup_iff (hpause : ∀ c, cron.runs (cron.pause c) = false) (connect : ℕ → Attempt N) (h : s.Inv cron [])
    (hfine : LoopFine cron connect 0 { s with lpConnectQueue := [] } s.lpConnectQueue) :
    ∃ s' tried, s.runJob cron connect = some (s', tried) ∧
      (s'.lpConnectQueue.Nodup ↔ LeavesFresh connect s.lpConnectQueue) := by
  obtain ⟨s', hrun, q, hq, hinv, -, hfresh⟩ := runJob_spec hpause connect h hfine
  refine ⟨s', _, hrun, ?_⟩
  have hleft : (s.lpConnectQueue.drop (made connect 0 s.lpConnectQueue)).Nodup :=
    h.nodup.sublist (drop_sublist ..)
  calc s'.lpConnectQueue.Nodup
      ↔ (s.lpConnectQueue.drop (made connect 0 s.lpConnectQueue)).Disjoint q := by
        rw [hq, nodup_append']
        exact ⟨fun h => h.2.2, fun h => ⟨hleft, hinv.nodup, h⟩⟩
    _ ↔ q.Disjoint (s.lpConnectQueue.drop (made connect 0 s.lpConnectQueue)) := List.disjoint_comm
    _ ↔ LeavesFresh connect s.lpConnectQueue := hfresh

theorem step_sound (hpause : ∀ c, cron.runs (cron.pause c) = false) (h : s.Inv cron []) {op : Op N}
    (hop : s.OpFine cron op) : ∃ t, s.step cron op = some t ∧ t.Sound ∧ t.after.Inv cron [] := by
  cases op with
  | call c =>
    have hinv := h.apply hpause hop
    refine ⟨_, rfl, ⟨hinv.nodup, fun p hp => ?_, fun p hp => ?_, nodup_nil,
      fun hran => absurd hran (by simp)⟩, hinv⟩
    · exact (apply_keeps (.inl hp)).imp_right .inr
    · exact apply_keeps (.inr (.inr (mem_singleton.1 hp).symm))
  | time connect =>
    cases hfires : s.fires cron with
    | false =>
      refine ⟨⟨s, false, [], [], s⟩, by simp [step, hfires], ⟨h.nodup, fun p hp => .inl hp, ?_, nodup_nil, ?_⟩, h⟩
      · exact fun p hp => absurd hp (by simp)
      · exact fun hran => absurd hran (by simp)
    | true =>
      obtain ⟨hfine, hfresh⟩ := hop hfires
      obtain ⟨s', hrun, q, hq, hinv, hadds, hdis⟩ := runJob_spec hpause connect h hfine
      have hleft : (s.lpConnectQueue.drop (made connect 0 s.lpConnectQueue)).Nodup :=
        h.nodup.sublist (drop_sublist ..)
      have hnodup : s'.lpConnectQueue.Nodup := by
        rw [hq, nodup_append']
        exact ⟨hleft, hinv.nodup, (hdis.2 hfresh).symm⟩
      have hstep : s.step cron (.time connect) = some ⟨s, true, s.lpConnectQueue.take (made connect 0 s.lpConnectQueue),
          (List.range (s.lpConnectQueue.take (made connect 0 s.lpConnectQueue)).length).flatMap fun k => (connect k).calls,
          s'⟩ := by
        simp only [step, hfires, hrun, if_true, Option.map_some]
      refine ⟨_, hstep, ⟨hnodup, fun p hp => ?_, fun p hp => ?_, ?_, fun _ => ?_⟩, ?_⟩
      · rw [← take_append_drop (made connect 0 s.lpConnectQueue) s.lpConnectQueue, mem_append] at hp
        rcases hp with hp | hp
        · exact .inr (.inl hp)
        · exact .inl (hq ▸ mem_append_left _ hp)
      · obtain ⟨k, hk, hadd⟩ := mem_flatMap.1 hp
        have hk' : k < made connect 0 s.lpConnectQueue := by
          rw [mem_range, length_take] at hk
          exact lt_of_lt_of_le hk (min_le_left ..)
        exact (hadds k hk' p hadd).imp_left fun hp => hq ▸ mem_append_right _ hp
      · exact h.nodup.sublist (take_sublist ..)
      · by_contra hpos
        have hrests := h.paused (not_le.1 hpos)
        rw [hfires] at hrests
        exact absurd hrests (by decide)
      · refine { hinv with nodup := hnodup, alive := fun p hp => ?_, waits := by simp }
        rcases mem_append.1 (hq ▸ hp) with hp | hp
        · exact hinv.waits p hp
        · exact hinv.alive p hp

/-- **The queue over a whole run.** In every run in which no network that a run of the timer leaves over is added in it, none that
waits in one is deleted, and no pause is resumed while the timer exists and others are outstanding: no network is in the queue
twice, none leaves it but by an attempt or by its deletion, none is tried twice by a run of the timer, and the timer does not run
while there are more pauses than resumes. -/
theorem queue_kept (cron : CCron C) (hpause : ∀ c, cron.runs (cron.pause c) = false) (ops : List (Op N))
    (hfine : (init : CZNC N C).RunFine cron ops) :
    ∃ ts, (init : CZNC N C).steps cron ops = some ts ∧ ∀ t ∈ ts, t.Sound := by
  have hrun : ∀ s : CZNC N C, s.Inv cron [] → s.RunFine cron ops → ∃ ts, s.steps cron ops = some ts ∧
    ∀ t ∈ ts, t.Sound := by
    clear hfine
    induction ops with
    | nil => exact fun s _ _ => ⟨[], rfl, by simp⟩
    | cons op ops ih =>
      intro s h hfine
      obtain ⟨t, ht, hsound, hinv⟩ := step_sound hpause h hfine.1
      have hrest := hfine.2
      rw [ht, Option.elim_some] at hrest
      obtain ⟨ts, hts, hall⟩ := ih t.after hinv hrest
      refine ⟨t :: ts, by simp [steps, ht, hts], fun t' ht' => ?_⟩
      rcases mem_cons.1 ht' with rfl | ht'
      · exact hsound
      · exact hall t' ht'
  exact hrun init init_inv hfine

/-- a cron that runs exactly if it was not paused last -/
def flagCron : CCron Bool := ⟨true, fun _ => false, fun _ => true, id⟩

/-- a network that is throttled and queues itself again, and one that connects -/
def throttled : ℕ → Attempt ℕ
  | 0 => ⟨[.AddNetworkToQueue 1], false⟩
  | _ => ⟨[.PauseConnectQueue], true⟩

theorem queue_kept_throttled :
    ∃ ts, (init : CZNC ℕ Bool).steps flagCron [.call (.AddNetworkToQueue 1),
      .call (.AddNetworkToQueue 2), .time throttled,
        .call .ResumeConnectQueue, .call (.DeleteNetwork 1)] = some ts ∧ ∀ t ∈ ts, t.Sound :=
  queue_kept flagCron (fun _ => rfl) _ (by decide)

theorem runJob_nodup_throttled :
    ∃ s' tried, ((init : CZNC ℕ Bool).addNetworkToQueue flagCron 1).runJob flagCron throttled = some (s', tried) ∧
      (s'.lpConnectQueue.Nodup ↔ LeavesFresh throttled [1]) :=
  runJob_nodup_iff (fun _ => rfl) throttled (init_inv.addNetworkToQueue (by decide)) (by decide)

/-- The second network is queued again while it waits, and the first one connects. With two pauses outstanding, one resume lets
the timer run. A network that is deleted while it waits is tried nevertheless. -/
theorem queue_not_kept :
    ((init : CZNC ℕ Bool).steps flagCron [.call (.AddNetworkToQueue 1), .call (.AddNetworkToQueue 2),
        .time fun _ => ⟨[.AddNetworkToQueue 2], true⟩]).map (fun ts => ts.map fun t => t.after.lpConnectQueue) =
      some [[1], [1, 2], [2, 2]] ∧
    ((init : CZNC ℕ Bool).steps flagCron [.call (.AddNetworkToQueue 1), .call .PauseConnectQueue,
      .call .PauseConnectQueue,
        .call .ResumeConnectQueue, .time fun _ => ⟨[], false⟩]).map (fun ts => ts.map fun t =>
          (t.ran, t.before.outstanding)) =
      some [(false, 0), (false, 0), (false, 1), (false, 2), (true, 1)] ∧
    (init : CZNC ℕ Bool).steps flagCron [.call (.AddNetworkToQueue 1), .call (.AddNetworkToQueue 2),
        .time fun _ => ⟨[.DeleteNetwork 2], false⟩] = none := by
  refine ⟨by decide, by decide, ?_⟩
  rfl

end CZNC

end ConnectQueue

end ZNC
