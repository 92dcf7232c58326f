/-
The end of capability negotiation: when `SendNextCap` sends CAP END.

The comment before CAP END says that all ACK and NAK replies are there. `SendNextCap` does not count them: it runs behind
every line that is not continued and when the last pause is lifted, and sends CAP END as soon as nothing is left to
request. So an unsolicited CAP NEW, DEL or LS, or a pause, can end the negotiation while the answer to a request is due.

Results:
- `handle_between`: a line or call in time leaves at most one request open, and the counter at the number of open pauses;
- `cap_end_settled`: a run of them sends CAP END only with all answers there and no pause open;
- `cap_ends_early`: a CAP NEW behind the first request ends the negotiation.
-/
import ZNC.Lib.Journal
import ZNC.Cap

namespace ZNC.Cap

open Journal CIRCSock List

/-! ## Counting -/

/-- requests whose answer is due -/
def unanswered : List Entry → ℕ
  | [] => 0
  | .requested _ :: log => unanswered log + 1
  | .retried _ :: log => unanswered log + 1
  | .heard .answered :: log => unanswered log - 1
  | _ :: log => unanswered log

/-- calls of `PauseCap` without their `ResumeCap` -/
def openPauses : List Entry → ℕ
  | [] => 0
  | .paused :: log => openPauses log + 1
  | .resumed :: log => openPauses log - 1
  | _ :: log => openPauses log

/-- nothing speaks against CAP END -/
def Settled (log : List Entry) : Prop := unanswered log = 0 ∧ openPauses log = 0

instance (log : List Entry) : Decidable (Settled log) := inferInstanceAs (Decidable (_ ∧ _))

/-- every CAP END was sent with all answers there and no pause open -/
def EndsSettled (log : List Entry) : Prop := ∀ later earlier, log = later ++ .ended :: earlier → Settled earlier

theorem endsSettled_iff {log : List Entry} :
    EndsSettled log ↔ Always (fun e earlier => e = .ended → Settled earlier) log := by
  rw [always_iff]
  constructor
  · intro h later e earlier hsplit he
    rw [he] at hsplit
    exact h later earlier hsplit
  · intro h later earlier hsplit
    exact h later .ended earlier hsplit rfl

/-! ## Traffic in time -/

/-- A pause keeps the counter below its range, and a call of `ResumeCap` lifts an open pause. The last one is lifted while
no request is open and, where `SendNextCap` runs `again` at the end of the line, with nothing left to request. -/
def CallInTime (again : Prop) (s : CIRCSock) : Call → Prop
  | .PauseCap => openPauses s.log + 1 < 2 ^ 32
  | .ResumeCap => 1 < openPauses s.log ∨ (openPauses s.log = 1 ∧ unanswered s.log = 0 ∧ (again → s.Done))

/-- the same of a step inside a line, where only the calls of the hooks count -/
def HookInTime (again : Prop) (s : CIRCSock) : Op → Prop
  | .call c => CallInTime again s c
  | _ => True

section

variable (ssBlacklist : SCString) (s : CIRCSock) (m : CMessage) (answers : List Answer)

/-- the socket behind the loops of a line -/
def bodyOf : CIRCSock := (bodyOps ssBlacklist m answers).foldl exec ((heard m).foldl hear s)

/-- the line is not continued and its hooks leave no pause open -/
def RunsNext : Prop := bMore m = false ∧ openPauses (bodyOf ssBlacklist s m answers).log = 0

/-- Before the registration, the hooks of a line call in time, and a line behind which `SendNextCap` runs unpaused ends the
answer to a request or comes while none is open. -/
def LineInTime : Prop :=
  Along exec (fun _ => HookInTime (RunsNext ssBlacklist s m answers)) (bodyOps ssBlacklist m answers)
      ((heard m).foldl hear s) ∧
    (RunsNext ssBlacklist s m answers → .answered ∈ heard m ∨ unanswered s.log = 0)

def InTime : Event → Prop
  | .cap m answers => s.bAuthed = false → LineInTime ssBlacklist s m answers
  | .call c => s.bAuthed = false → CallInTime False s c
  | .welcome => True

instance (again : Prop) [Decidable again] (c : Call) : Decidable (CallInTime again s c) := by
  cases c <;> unfold CallInTime <;> infer_instance

instance (again : Prop) [Decidable again] (op : Op) : Decidable (HookInTime again s op) := by
  cases op <;> unfold HookInTime <;> infer_instance

instance : Decidable (RunsNext ssBlacklist s m answers) := inferInstanceAs (Decidable (_ ∧ _))

instance : Decidable (LineInTime ssBlacklist s m answers) := inferInstanceAs (Decidable (_ ∧ (_ → _)))

instance (ev : Event) : Decidable (InTime ssBlacklist s ev) := by
  cases ev <;> unfold InTime <;> infer_instance

end

/-! ## Steps -/

/-- before the registration: at most one request is open, none if `idle`, and the counter is the number of open pauses -/
structure Waiting (idle : Prop) (s : CIRCSock) : Prop where
  settled : EndsSettled s.log
  authed : s.bAuthed = false
  one : unanswered s.log ≤ 1
  pauses : openPauses s.log = s.uCapPaused.toNat
  none : idle → unanswered s.log = 0

variable {s : CIRCSock}

theorem Waiting.weaken {p q : Prop} (h : Waiting p s) (hpq : q → p) : Waiting q s :=
  { h with none := fun hq => h.none (hpq hq) }

theorem endsSettled_cons {e : Entry} {log : List Entry} (h : EndsSettled log) (he : e = .ended → Settled log) :
    EndsSettled (e :: log) :=
  endsSettled_iff.2 ⟨he, endsSettled_iff.1 h⟩

/-- `SendNextCap` where no request is open, or paused -/
theorem sendNextCap_waiting (h : Waiting (s.uCapPaused = 0) s) :
    Waiting (s.Done ∧ unanswered s.log = 0) s.sendNextCap ∧ s.sendNextCap.uCapPaused = s.uCapPaused := by
  rcases s.sendNextCap_cases with ⟨hsend, -⟩ | ⟨hzero, vsCaps, pending, hne, hbatch, hsend⟩ |
      ⟨hzero, sCap, hmem, hsend⟩ | ⟨hzero, -, -, hsend⟩
  · rw [hsend]
    exact ⟨{ h with none := fun hd => hd.2 }, rfl⟩
  · have hopen := h.none hzero
    rw [hsend]
    refine ⟨⟨endsSettled_cons h.settled (by simp), h.authed, ?_, h.pauses, fun hd => ?_⟩, rfl⟩
    · simp [unanswered, hopen]
    · exact absurd (append_eq_nil_iff.1 (hbatch.symm.trans hd.1.1)).1 hne
  · have hopen := h.none hzero
    rw [hsend]
    refine ⟨⟨endsSettled_cons h.settled (by simp), h.authed, ?_, h.pauses, fun hd => ?_⟩, rfl⟩
    · simp [unanswered, hopen]
    · rw [← OrdSet.mem_toList, hd.1.2] at hmem
      cases hmem
  · have hsettled : Settled s.log := ⟨h.none hzero, by rw [h.pauses, hzero]; rfl⟩
    rw [hsend]
    exact ⟨⟨endsSettled_cons h.settled fun _ => hsettled, h.authed, h.one, h.pauses, fun hd => hd.2⟩, rfl⟩

theorem call_waiting {again : Prop} (h : Waiting again s) (c : Call) (hok : CallInTime again s c) :
    Waiting again (s.call c) := by
  cases c with
  | PauseCap =>
    have hcount : openPauses s.log + 1 < 2 ^ 32 := hok
    refine ⟨endsSettled_cons h.settled (by simp), h.authed, h.one, ?_, h.none⟩
    simp only [call, openPauses, UInt32.toNat_add, UInt32.toNat_one, ← h.pauses]
    omega
  | ResumeCap =>
    have hle : 1 ≤ openPauses s.log := by
      rcases hok with h | h
      · exact h.le
      · exact h.1.ge
    have hcount : (s.uCapPaused - 1).toNat = openPauses s.log - 1 := by
      rw [UInt32.toNat_sub_of_le _ _ (UInt32.le_iff_toNat_le.2 (h.pauses ▸ hle)), h.pauses]
      rfl
    have hopen : s.uCapPaused - 1 = 0 → unanswered s.log = 0 := by
      intro hzero
      rw [hzero] at hcount
      rcases hok with hlt | hlast
      · change 0 = openPauses s.log - 1 at hcount
        omega
      · exact hlast.2.1
    have hnext : Waiting (s.uCapPaused - 1 = 0)
        { s with uCapPaused := s.uCapPaused - 1, log := .resumed :: s.log } :=
      ⟨endsSettled_cons h.settled (by simp), h.authed, h.one, hcount.symm, hopen⟩
    have hsent := (@sendNextCap_waiting { s with uCapPaused := s.uCapPaused - 1, log := .resumed :: s.log } hnext).1
    refine { hsent with none := fun hagain => ?_ }
    by_cases hpaused : s.uCapPaused - 1 = 0
    · have hdone : s.Done := by
        rcases hok with hlt | hlast
        · have hzero : (s.uCapPaused - 1).toNat = 0 := by rw [hpaused]; rfl
          omega
        · exact hlast.2.2 hagain
      exact hsent.none ⟨hdone, h.none hagain⟩
    · have hidle : s.call .ResumeCap = { s with uCapPaused := s.uCapPaused - 1, log := .resumed :: s.log } :=
        if_pos hpaused
      rw [hidle]
      exact h.none hagain

/-- the steps inside a line: neither an answer nor numeric 001, and no `SendNextCap` of its own -/
def Inner : Op → Prop
  | .hear .answered => False
  | .sendNext => False
  | .welcome => False
  | _ => True

theorem inner_hookOps (a : Answer) : ∀ op ∈ hookOps a, Inner op := by
  intro op hop
  obtain ⟨c, -, rfl⟩ := mem_map.1 hop
  trivial

theorem inner_offerOps (ssBlacklist : SCString) (tokens : VCString) (answers : List Answer) :
    ∀ op ∈ offerOps ssBlacklist tokens answers, Inner op := by
  induction tokens generalizing answers with
  | nil => simp [offerOps]
  | cons sToken tokens ih =>
    intro op hop
    simp only [offerOps] at hop
    split_ifs at hop
    all_goals simp only [mem_cons, mem_append, not_mem_nil, or_false, false_or] at hop
    · rcases hop with rfl | hop
      · trivial
      · exact ih _ op hop
    · rcases hop with rfl | rfl | hop | rfl | hop
      · trivial
      · trivial
      · exact inner_hookOps _ op hop
      · trivial
      · exact ih _ op hop
    · rcases hop with rfl | rfl | hop | hop
      · trivial
      · trivial
      · exact inner_hookOps _ op hop
      · exact ih _ op hop

theorem inner_acceptOps (caps : VCString) (answers : List Answer) : ∀ op ∈ acceptOps caps answers, Inner op := by
  induction caps generalizing answers with
  | nil => simp [acceptOps]
  | cons sCap caps ih =>
    intro op hop
    simp only [acceptOps, mem_append, mem_cons] at hop
    rcases hop with hop | rfl | hop
    · exact inner_hookOps _ op hop
    · trivial
    · exact ih _ op hop

theorem inner_deleteOps (caps : VCString) (answers : List Answer) : ∀ op ∈ deleteOps caps answers, Inner op := by
  induction caps generalizing answers with
  | nil => simp [deleteOps]
  | cons sCap caps ih =>
    intro op hop
    simp only [deleteOps, mem_append, mem_cons] at hop
    rcases hop with hop | rfl | rfl | hop
    · exact inner_hookOps _ op hop
    · trivial
    · trivial
    · exact ih _ op hop

theorem inner_bodyOps (ssBlacklist : SCString) (m : CMessage) (answers : List Answer) :
    ∀ op ∈ bodyOps ssBlacklist m answers, Inner op := by
  unfold bodyOps
  split_ifs
  · exact inner_offerOps ssBlacklist _ _
  · exact inner_acceptOps _ _
  · intro op hop
    rcases mem_append.1 hop with hop | hop
    · exact inner_hookOps _ op hop
    · rw [mem_singleton.1 hop]
      trivial
  · intro op hop
    obtain ⟨sCap, -, rfl⟩ := mem_map.1 hop
    trivial
  · exact inner_deleteOps _ _
  · simp

theorem hear_waiting {idle : Prop} (h : Waiting idle s) (x : Heard) :
    Waiting (idle ∨ x = .answered) (s.hear x) := by
  have hlog : EndsSettled (s.hear x).log := endsSettled_cons h.settled (by simp)
  cases x with
  | answered =>
    have hone := h.one
    have hleft : unanswered (s.hear .answered).log = 0 := by
      simp only [hear, unanswered]
      omega
    exact ⟨hlog, h.authed, by omega, h.pauses, fun _ => hleft⟩
  | _ => exact ⟨hlog, h.authed, h.one, h.pauses, fun hi => h.none (by simpa using hi)⟩

theorem exec_waiting {again : Prop} (h : Waiting again s) (op : Op) (hinner : Inner op)
    (hok : HookInTime again s op) : Waiting again (s.exec op) := by
  cases op with
  | hear x => exact (hear_waiting h x).weaken .inl
  | call c => exact call_waiting h c hok
  | accept sCap =>
    obtain ⟨b1, b2, b3, b4, hset⟩ := s.setSupported_eq sCap true
    simp only [exec, hset]
    exact ⟨h.settled, h.authed, h.one, h.pauses, h.none⟩
  | remove sCap =>
    obtain ⟨b1, b2, b3, b4, hset⟩ := s.setSupported_eq sCap false
    simp only [exec, hset]
    exact ⟨h.settled, h.authed, h.one, h.pauses, h.none⟩
  | sendNext => exact hinner.elim
  | welcome => exact hinner.elim
  | _ => exact ⟨h.settled, h.authed, h.one, h.pauses, h.none⟩

theorem hearAll_waiting {idle : Prop} (h : Waiting idle s) (xs : List Heard) :
    Waiting (idle ∨ .answered ∈ xs) (xs.foldl hear s) := by
  induction xs generalizing idle s with
  | nil => exact h.weaken fun hi => hi.resolve_right (by simp)
  | cons x xs ih =>
    refine (ih (hear_waiting h x)).weaken fun hi => ?_
    rcases hi with hi | hi
    · exact .inl (.inl hi)
    · rcases mem_cons.1 hi with rfl | hi
      · exact .inl (.inr rfl)
      · exact .inr hi

/-! ## Runs -/

variable {ssBlacklist : SCString}

theorem onCapabilityMessage_bodyOf (s : CIRCSock) (m : CMessage) (answers : List Answer) :
    s.onCapabilityMessage ssBlacklist m answers = if bMore m then bodyOf ssBlacklist s m answers
      else (bodyOf ssBlacklist s m answers).sendNextCap := by
  have hheard : (heard m).foldl hear s = ((heard m).map .hear).foldl exec s := by
    rw [foldl_map]
    rfl
  rw [onCapabilityMessage_eq_ops, opsOf, lineOps, foldl_append, foldl_append, ← hheard, bodyOf]
  split_ifs
  · rfl
  · rfl

/-- inside a line, with these steps to come -/
def Going (again : Prop) (todo : List Op) (s : CIRCSock) : Prop := (∀ op ∈ todo, Inner op) ∧ Waiting again s

/-- A line in time: the loops keep what holds, the answer closes the open request, and `SendNextCap` finds none. -/
theorem line_waiting (h : Waiting False s) (m : CMessage) (answers : List Answer)
    (hok : LineInTime ssBlacklist s m answers) : Waiting False (s.onCapabilityMessage ssBlacklist m answers) := by
  have hheard : Waiting (RunsNext ssBlacklist s m answers) ((heard m).foldl hear s) := by
    have hidle : Waiting (unanswered s.log = 0) s := { h with none := id }
    exact (hearAll_waiting hidle (heard m)).weaken fun hnext => (hok.2 hnext).symm
  have hbody : Waiting (RunsNext ssBlacklist s m answers) (bodyOf ssBlacklist s m answers) := by
    have hstep : ∀ op todo t, Going (RunsNext ssBlacklist s m answers) (op :: todo) t →
        HookInTime (RunsNext ssBlacklist s m answers) t op →
        Going (RunsNext ssBlacklist s m answers) todo (t.exec op) :=
      fun op todo t h hop => ⟨fun x hx => h.1 x (mem_cons_of_mem _ hx),
        exec_waiting h.2 op (h.1 op mem_cons_self) hop⟩
    exact (along_inv exec hstep _ _ ⟨inner_bodyOps ssBlacklist m answers, hheard⟩ hok.1).2
  rw [onCapabilityMessage_bodyOf]
  split_ifs with hmore
  · exact hbody.weaken False.elim
  · have hnext : Waiting ((bodyOf ssBlacklist s m answers).uCapPaused = 0) (bodyOf ssBlacklist s m answers) := by
      refine hbody.weaken fun hzero => ⟨Bool.eq_false_iff.2 hmore, ?_⟩
      rw [hbody.pauses, hzero]
      rfl
    exact (sendNextCap_waiting hnext).1.weaken False.elim

/-- behind numeric 001 there is no CAP END -/
theorem exec_authed (h : s.bAuthed = true ∧ EndsSettled s.log) (op : Op) :
    (s.exec op).bAuthed = true ∧ EndsSettled (s.exec op).log := by
  have hnext : ∀ t : CIRCSock, t.bAuthed = true → EndsSettled t.log →
      t.sendNextCap.bAuthed = true ∧ EndsSettled t.sendNextCap.log := by
    intro t hauthed hlog
    rcases t.sendNextCap_cases with ⟨hsend, -⟩ | ⟨-, _, _, -, -, hsend⟩ | ⟨-, _, -, hsend⟩ | ⟨-, -, hfalse, -⟩
    · rw [hsend]
      exact ⟨hauthed, hlog⟩
    · rw [hsend]
      exact ⟨hauthed, endsSettled_cons hlog (by simp)⟩
    · rw [hsend]
      exact ⟨hauthed, endsSettled_cons hlog (by simp)⟩
    · rw [hauthed] at hfalse
      cases hfalse
  cases op with
  | hear x => exact ⟨h.1, endsSettled_cons h.2 (by simp)⟩
  | call c =>
    cases c with
    | PauseCap => exact ⟨h.1, endsSettled_cons h.2 (by simp)⟩
    | ResumeCap => exact hnext _ h.1 (endsSettled_cons h.2 (by simp))
  | accept sCap =>
    obtain ⟨b1, b2, b3, b4, hset⟩ := s.setSupported_eq sCap true
    simp only [exec, hset]
    exact h
  | remove sCap =>
    obtain ⟨b1, b2, b3, b4, hset⟩ := s.setSupported_eq sCap false
    simp only [exec, hset]
    exact h
  | sendNext => exact hnext s h.1 h.2
  | welcome => exact ⟨rfl, h.2⟩
  | _ => exact h

theorem foldl_authed (h : s.bAuthed = true ∧ EndsSettled s.log) (ops : List Op) :
    (ops.foldl exec s).bAuthed = true ∧ EndsSettled (ops.foldl exec s).log := by
  induction ops generalizing s with
  | nil => exact h
  | cons op ops ih => exact ih (exec_authed h op)

/-- between two events -/
def Between (s : CIRCSock) : Prop := Waiting False s ∨ (s.bAuthed = true ∧ EndsSettled s.log)

theorem handle_between (s : CIRCSock) (ev : Event) (h : Between s) (hok : InTime ssBlacklist s ev) :
    Between (s.handle ssBlacklist ev) := by
  rcases h with h | h
  · cases ev with
    | cap m answers => exact .inl (line_waiting h m answers (hok h.authed))
    | call c => exact .inl (call_waiting h c (hok h.authed))
    | welcome => exact .inr ⟨rfl, h.settled⟩
  · right
    rw [handle_eq_ops]
    exact foldl_authed h (opsOf ssBlacklist ev)

/-- **When CAP END is sent in time.** In every run of lines and calls in time, CAP END is sent only with all answers there
and no pause open. -/
theorem cap_end_settled (ssBlacklist : SCString) (evs : List Event)
    (hok : Along (handle ssBlacklist) (fun _ => InTime ssBlacklist) evs init) :
    EndsSettled (init.run ssBlacklist evs).log := by
  have hinit : Between init := .inl ⟨endsSettled_iff.2 trivial, rfl, Nat.zero_le 1, rfl, fun _ => rfl⟩
  have hrun := along_inv (handle ssBlacklist) (fun ev _ s (h : Between s) hev => handle_between s ev h hev) evs init hinit hok
  rcases hrun with h | h
  · exact h.settled
  · exact h.2

/-- the line `CAP * sSubCmd :sArgs` -/
def capLine (sSubCmd sArgs : String) : CMessage where
  nick := .empty
  sCommand := lit "CAP"
  vsParams := [lit "*", lit sSubCmd, lit sArgs]
  mssTags := .empty
  time := ⟨0, 0⟩
  eType := .Capability
  bColon := true

/-- an offer while nothing is requested, a pause over the answer, and a deletion behind it -/
def timelyEnd : List Event :=
  [.cap (capLine "LS" "multi-prefix sasl") [.none, ⟨true, []⟩],
    .cap (capLine "ACK" "multi-prefix sasl") [.none, ⟨false, [.PauseCap]⟩], .call .ResumeCap,
    .cap (capLine "DEL" "sasl") []]

theorem cap_end_settled_timely : .ended ∈ (init.run .empty timelyEnd).log ∧
    EndsSettled (init.run .empty timelyEnd).log :=
  ⟨by decide, cap_end_settled .empty timelyEnd (by decide)⟩

/-- an offer, an offer of something else before the answer to the request, and the answer -/
def earlyEnd : List Event :=
  [.cap (capLine "LS" "multi-prefix") [], .cap (capLine "NEW" "x") [], .cap (capLine "ACK" "multi-prefix") []]

/-- CAP END behind the first request, whose answer comes only then -/
theorem cap_ends_early : ¬EndsSettled (init.run .empty earlyEnd).log := by
  have hlog : (init.run .empty earlyEnd).log =
      [.ended, .heard (.acked (lit "multi-prefix")), .heard .answered] ++ .ended ::
        [.heard (.offered (lit "x")), .requested [lit "multi-prefix"], .heard (.offered (lit "multi-prefix"))] := by
    decide
  intro h
  have hsettled := h _ _ hlog
  exact absurd hsettled (by decide)

end ZNC.Cap
