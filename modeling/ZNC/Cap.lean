/-
Capability negotiation with the server: `OnCapabilityMessage`, `SendNextCap`, `PauseCap` and `ResumeCap` of
`src/IRCSock.cpp`.

The server offers capabilities with CAP LS and NEW; the wanted ones go to a pending set and are requested in batches. A
refused batch goes to a second set and is requested one by one. Modules are asked about each capability and told about each
result; an `Answer` is what they reply, with the calls of `PauseCap` and `ResumeCap` they make meanwhile. A journal of what
was heard, sent and called, newest entry first, is kept beside the fields of the socket; the code does not read it.

Every run is a sequence of small steps (`Op`). A hook can run `SendNextCap` in the middle of a line, where only the small
steps have a state before them.

Results:
- `packCaps_spec`: a batch is the front of the pending set;
- `sendNextCap_cases`: all that `SendNextCap` can do;
- `onCapabilityMessage_eq_ops`: a CAP line is its small steps in order.
-/
import ZNC.Message

namespace ZNC.Cap

open Words CString List

/-! ## State -/

/-- what a line of the server says about a capability -/
inductive Heard where
  | offered (sCap : CString)
  | acked (sCap : CString)
  | naked (sCap : CString) (bAlone : Bool)
  | deleted (sCap : CString)
  /-- the last line of the answer to a request -/
  | answered
deriving DecidableEq, Repr

/-- what was heard from the server, sent to it, and called by modules -/
inductive Entry where
  | heard (h : Heard)
  /-- `CAP REQ` out of the pending set -/
  | requested (vsCaps : VCString)
  /-- `CAP REQ` for one of a refused batch -/
  | retried (sCap : CString)
  /-- `CAP END` -/
  | ended
  | paused
  | resumed
deriving DecidableEq, Repr

/-- the fields of `CIRCSock` that take part in the negotiation, and the journal -/
structure CIRCSock where
  bAuthed : Bool
  bNamesx : Bool
  bUHNames : Bool
  bServerTime : Bool
  bMessageTagCap : Bool
  uCapPaused : UInt32
  ssAcceptedCaps : SCString
  ssPendingCaps : SCString
  ssPendingCapsPhase2 : SCString
  msCapLsValues : MCString
  log : List Entry

namespace CIRCSock

def init : CIRCSock where
  bAuthed := false
  bNamesx := false
  bUHNames := false
  bServerTime := false
  bMessageTagCap := false
  uCapPaused := 0
  ssAcceptedCaps := .empty
  ssPendingCaps := .empty
  ssPendingCapsPhase2 := .empty
  msCapLsValues := .empty
  log := []

def hear (s : CIRCSock) (h : Heard) : CIRCSock := { s with log := .heard h :: s.log }

end CIRCSock

def mSupportedCaps : List (CString × (CIRCSock → Bool → CIRCSock)) :=
  [(lit "multi-prefix", fun s bVal => { s with bNamesx := bVal }),
   (lit "userhost-in-names", fun s bVal => { s with bUHNames := bVal }),
   (lit "cap-notify", fun s _ => s),
   (lit "invite-notify", fun s _ => s),
   (lit "server-time", fun s bVal => { s with bServerTime := bVal }),
   (lit "znc.in/server-time-iso", fun s bVal => { s with bServerTime := bVal }),
   (lit "chghost", fun s _ => s),
   (lit "message-tags", fun s bVal => { s with bMessageTagCap := bVal })]

/-! ## `SendNextCap` -/

/-- the loop over the pending capabilities: those that fit into one request, and the rest -/
def packCaps (vsCaps : VCString) : VCString → VCString × VCString
  | [] => (vsCaps, [])
  | sNext :: pending =>
    if 98 < (CString.join [ch ' '] vsCaps).length + sNext.length then (vsCaps, sNext :: pending)
    else packCaps (vsCaps ++ [sNext]) pending

/-- what a module calls -/
inductive Call where
  | PauseCap
  | ResumeCap
deriving DecidableEq, Repr

namespace CIRCSock

def sendNextCap (s : CIRCSock) : CIRCSock :=
  if s.uCapPaused ≠ 0 then s
  else
    match s.ssPendingCaps.toList with
    | sCap :: pending =>
      let (vsCaps, pending) := packCaps [sCap] pending
      { s with ssPendingCaps := .ofList pending, log := .requested vsCaps :: s.log }
    | [] =>
      match s.ssPendingCapsPhase2.toList with
      | sCap :: _ => { s with ssPendingCapsPhase2 := s.ssPendingCapsPhase2.erase sCap, log := .retried sCap :: s.log }
      | [] => if s.bAuthed then s else { s with log := .ended :: s.log }

/-- `PauseCap()` and `ResumeCap()` -/
def call (s : CIRCSock) : Call → CIRCSock
  | .PauseCap => { s with uCapPaused := s.uCapPaused + 1, log := .paused :: s.log }
  | .ResumeCap => sendNextCap { s with uCapPaused := s.uCapPaused - 1, log := .resumed :: s.log }

/-- the function of `mSupportedCaps`, if there is one -/
def setSupported (s : CIRCSock) (sCap : CString) (bVal : Bool) : CIRCSock :=
  match mSupportedCaps.lookup sCap with
  | none => s
  | some f => f s bVal

theorem setSupported_eq (s : CIRCSock) (sCap : CString) (bVal : Bool) :
    ∃ b1 b2 b3 b4, s.setSupported sCap bVal =
      { s with bNamesx := b1, bUHNames := b2, bServerTime := b3, bMessageTagCap := b4 } := by
  unfold setSupported
  cases hf : mSupportedCaps.lookup sCap with
  | none => exact ⟨_, _, _, _, rfl⟩
  | some f =>
    obtain ⟨l1, l2, hsplit, -⟩ := lookup_eq_some_iff.1 hf
    have hmem : (sCap, f) ∈ mSupportedCaps := by rw [hsplit]; simp
    simp only [mSupportedCaps, mem_cons, Prod.mk.injEq, not_mem_nil, or_false] at hmem
    rcases hmem with h | h | h | h | h | h | h | h
    all_goals rw [h.2]; exact ⟨_, _, _, _, rfl⟩

end CIRCSock

/-! ## `OnCapabilityMessage` -/

/-- what the modules do when they are asked about a capability, or told about a result -/
structure Answer where
  bWanted : Bool
  calls : List Call
deriving DecidableEq, Repr

/-- modules that say nothing -/
def Answer.none : Answer := ⟨false, []⟩

/-- name and value of a token -/
def capOf (sToken : CString) : CString × CString := (cut (ch '=') sToken).getD (sToken, [])

/-- "OnServerCapAvailable(sCap, sValue) || mSupportedCaps.count(sCap)" -/
def wants (a : Answer) (sCap : CString) : Bool := a.bWanted || (mSupportedCaps.lookup sCap).isSome

/-- the second word of the line -/
def sSubCmd (m : CMessage) : CString := m.getParam 1

/-- the line is continued on another one -/
def bMore (m : CMessage) : Bool := m.getParam 2 = lit "*"

def sArgs (m : CMessage) : CString := if bMore m then m.getParam 3 else m.getParam 2

/-- "sArgs.Split(" ", vsTokens, false)" -/
def vsTokens (m : CMessage) : VCString := (sArgs m).split (ch ' ') false

/-- what is heard from a line, apart from its offers -/
def heard (m : CMessage) : List Heard :=
  if sSubCmd m = lit "ACK" then (if bMore m then [] else [.answered]) ++ (vsTokens m).map .acked
  else if sSubCmd m = lit "NAK" then
    (if bMore m then [] else [.answered]) ++ (vsTokens m).map (Heard.naked · ((vsTokens m).length = 1))
  else if sSubCmd m = lit "DEL" then (vsTokens m).map .deleted
  else []

namespace CIRCSock

/-- a hook, with the calls it makes -/
def hook (s : CIRCSock) (a : Answer) : CIRCSock := a.calls.foldl call s

/-- the loop of LS and NEW; `ssBlacklist` is `GetServerCapBlacklist()` -/
def offerAll (ssBlacklist : SCString) : VCString → List Answer → CIRCSock → CIRCSock
  | [], _, s => s
  | sToken :: tokens, answers, s =>
    let (sCap, sValue) := capOf sToken
    let s := s.hear (.offered sCap)
    if sCap ∈ ssBlacklist then offerAll ssBlacklist tokens answers s
    else
      let a := answers.headD .none
      let s := { s with msCapLsValues := s.msCapLsValues.insert sCap sValue }
      let s := s.hook a
      let s := if wants a sCap then { s with ssPendingCaps := s.ssPendingCaps.insert sCap } else s
      offerAll ssBlacklist tokens answers.tail s

/-- the loop of ACK -/
def acceptAll : VCString → List Answer → CIRCSock → CIRCSock
  | [], _, s => s
  | sCap :: caps, answers, s =>
    let s := (s.hook (answers.headD .none)).setSupported sCap true
    acceptAll caps answers.tail { s with ssAcceptedCaps := s.ssAcceptedCaps.insert sCap }

def removeCap (s : CIRCSock) (sCap : CString) (a : Answer) : CIRCSock :=
  let s := (s.hook a).setSupported sCap false
  { s with ssAcceptedCaps := s.ssAcceptedCaps.erase sCap, ssPendingCaps := s.ssPendingCaps.erase sCap }

/-- the loop of DEL -/
def deleteAll : VCString → List Answer → CIRCSock → CIRCSock
  | [], _, s => s
  | sCap :: caps, answers, s =>
    let s := s.removeCap sCap (answers.headD .none)
    deleteAll caps answers.tail { s with msCapLsValues := s.msCapLsValues.erase sCap }

/-- the loop of a NAK for several -/
def retryAll (caps : VCString) (s : CIRCSock) : CIRCSock :=
  { s with ssPendingCapsPhase2 := caps.foldl OrdSet.insert s.ssPendingCapsPhase2 }

def onCapabilityMessage (ssBlacklist : SCString) (s : CIRCSock) (m : CMessage) (answers : List Answer) : CIRCSock :=
  let s := (heard m).foldl hear s
  let s :=
    if sSubCmd m = lit "LS" ∨ sSubCmd m = lit "NEW" then offerAll ssBlacklist (vsTokens m) answers s
    else if sSubCmd m = lit "ACK" then acceptAll (vsTokens m) answers s
    else if sSubCmd m = lit "NAK" then
      -- the name is the whole argument, not the token of it
      if (vsTokens m).length = 1 then s.removeCap (sArgs m) (answers.headD .none) else retryAll (vsTokens m) s
    else if sSubCmd m = lit "DEL" then deleteAll (vsTokens m) answers s
    else s
  if bMore m then s else s.sendNextCap

end CIRCSock

/-! ## Runs -/

/-- what happens to the socket: a CAP line with the answers of the modules, a call from elsewhere, numeric 001 -/
inductive Event where
  | cap (m : CMessage) (answers : List Answer)
  | call (c : Call)
  | welcome

namespace CIRCSock

def handle (ssBlacklist : SCString) (s : CIRCSock) : Event → CIRCSock
  | .cap m answers => s.onCapabilityMessage ssBlacklist m answers
  | .call c => s.call c
  | .welcome => { s with bAuthed := true }

def run (ssBlacklist : SCString) (s : CIRCSock) (evs : List Event) : CIRCSock := evs.foldl (handle ssBlacklist) s

end CIRCSock

/-! ## Small steps -/

/-- one step of the functions above, between two calls of modules -/
inductive Op where
  | hear (h : Heard)
  | call (c : Call)
  /-- the value of an offered capability -/
  | list (sCap sValue : CString)
  | want (sCap : CString)
  | accept (sCap : CString)
  /-- `RemoveCap` behind its hook -/
  | remove (sCap : CString)
  | unlist (sCap : CString)
  | retryLater (sCap : CString)
  | sendNext
  | welcome
deriving DecidableEq, Repr

namespace CIRCSock

def exec (s : CIRCSock) : Op → CIRCSock
  | .hear h => s.hear h
  | .call c => s.call c
  | .list sCap sValue => { s with msCapLsValues := s.msCapLsValues.insert sCap sValue }
  | .want sCap => { s with ssPendingCaps := s.ssPendingCaps.insert sCap }
  | .accept sCap =>
    let s := s.setSupported sCap true
    { s with ssAcceptedCaps := s.ssAcceptedCaps.insert sCap }
  | .remove sCap =>
    let s := s.setSupported sCap false
    { s with ssAcceptedCaps := s.ssAcceptedCaps.erase sCap, ssPendingCaps := s.ssPendingCaps.erase sCap }
  | .unlist sCap => { s with msCapLsValues := s.msCapLsValues.erase sCap }
  | .retryLater sCap => { s with ssPendingCapsPhase2 := s.ssPendingCapsPhase2.insert sCap }
  | .sendNext => s.sendNextCap
  | .welcome => { s with bAuthed := true }

end CIRCSock

def hookOps (a : Answer) : List Op := a.calls.map .call

def offerOps (ssBlacklist : SCString) : VCString → List Answer → List Op
  | [], _ => []
  | sToken :: tokens, answers =>
    let (sCap, sValue) := capOf sToken
    if sCap ∈ ssBlacklist then .hear (.offered sCap) :: offerOps ssBlacklist tokens answers
    else
      let a := answers.headD .none
      .hear (.offered sCap) :: .list sCap sValue ::
        (hookOps a ++ ((if wants a sCap then [.want sCap] else []) ++ offerOps ssBlacklist tokens answers.tail))

def acceptOps : VCString → List Answer → List Op
  | [], _ => []
  | sCap :: caps, answers => hookOps (answers.headD .none) ++ .accept sCap :: acceptOps caps answers.tail

def deleteOps : VCString → List Answer → List Op
  | [], _ => []
  | sCap :: caps, answers => hookOps (answers.headD .none) ++
      .remove sCap :: .unlist sCap :: deleteOps caps answers.tail

/-- the steps of a line behind its entries, up to `SendNextCap` -/
def bodyOps (ssBlacklist : SCString) (m : CMessage) (answers : List Answer) : List Op :=
  if sSubCmd m = lit "LS" ∨ sSubCmd m = lit "NEW" then offerOps ssBlacklist (vsTokens m) answers
  else if sSubCmd m = lit "ACK" then acceptOps (vsTokens m) answers
  else if sSubCmd m = lit "NAK" then
    if (vsTokens m).length = 1 then hookOps (answers.headD .none) ++ [.remove (sArgs m)]
    else (vsTokens m).map .retryLater
  else if sSubCmd m = lit "DEL" then deleteOps (vsTokens m) answers
  else []

/-- the steps of a line behind its entries -/
def lineOps (ssBlacklist : SCString) (m : CMessage) (answers : List Answer) : List Op :=
  bodyOps ssBlacklist m answers ++ if bMore m then [] else [.sendNext]

/-- the steps of an event -/
def opsOf (ssBlacklist : SCString) : Event → List Op
  | .cap m answers => (heard m).map .hear ++ lineOps ssBlacklist m answers
  | .call c => [.call c]
  | .welcome => [.welcome]

namespace CIRCSock

variable (ssBlacklist : SCString) (s : CIRCSock)

theorem hook_eq_ops (a : Answer) : s.hook a = (hookOps a).foldl exec s := by
  rw [hook, hookOps, foldl_map]
  rfl

theorem offerAll_eq_ops (tokens : VCString) (answers : List Answer) (s : CIRCSock) :
    offerAll ssBlacklist tokens answers s = (offerOps ssBlacklist tokens answers).foldl exec s := by
  induction tokens generalizing answers s with
  | nil => rfl
  | cons sToken tokens ih =>
    simp only [offerAll, offerOps]
    split_ifs with hblack hwant
    · rw [ih]
      rfl
    · rw [ih, hook_eq_ops, foldl_cons, foldl_cons, foldl_append]
      rfl
    · rw [ih, hook_eq_ops, foldl_cons, foldl_cons, foldl_append]
      rfl

theorem acceptAll_eq_ops (caps : VCString) (answers : List Answer) (s : CIRCSock) :
    acceptAll caps answers s = (acceptOps caps answers).foldl exec s := by
  induction caps generalizing answers s with
  | nil => rfl
  | cons sCap caps ih =>
    simp only [acceptAll, acceptOps]
    rw [ih, hook_eq_ops, foldl_append]
    rfl

theorem removeCap_eq_ops (sCap : CString) (a : Answer) :
    s.removeCap sCap a = (hookOps a ++ [Op.remove sCap]).foldl exec s := by
  rw [removeCap, hook_eq_ops, foldl_append]
  rfl

theorem deleteAll_eq_ops (caps : VCString) (answers : List Answer) (s : CIRCSock) :
    deleteAll caps answers s = (deleteOps caps answers).foldl exec s := by
  induction caps generalizing answers s with
  | nil => rfl
  | cons sCap caps ih =>
    simp only [deleteAll, deleteOps]
    rw [ih, removeCap_eq_ops, foldl_append, foldl_append]
    rfl

theorem retryAll_eq_ops (caps : VCString) (s : CIRCSock) : retryAll caps s = (caps.map .retryLater).foldl exec s := by
  induction caps generalizing s with
  | nil => rfl
  | cons sCap caps ih =>
    rw [map_cons, foldl_cons, ← ih]
    rfl

theorem onCapabilityMessage_eq_ops (m : CMessage) (answers : List Answer) :
    s.onCapabilityMessage ssBlacklist m answers = (opsOf ssBlacklist (.cap m answers)).foldl exec s := by
  have hheard : (heard m).foldl hear s = ((heard m).map .hear).foldl exec s := by
    rw [foldl_map]
    rfl
  have hbody : ∀ s : CIRCSock,
      (if sSubCmd m = lit "LS" ∨ sSubCmd m = lit "NEW" then offerAll ssBlacklist (vsTokens m) answers s
        else if sSubCmd m = lit "ACK" then acceptAll (vsTokens m) answers s
        else if sSubCmd m = lit "NAK" then
          if (vsTokens m).length = 1 then s.removeCap (sArgs m) (answers.headD .none) else retryAll (vsTokens m) s
        else if sSubCmd m = lit "DEL" then deleteAll (vsTokens m) answers s
        else s) = (bodyOps ssBlacklist m answers).foldl exec s := by
    intro s
    unfold bodyOps
    split_ifs
    · exact offerAll_eq_ops ssBlacklist _ _ s
    · exact acceptAll_eq_ops _ _ s
    · exact removeCap_eq_ops s _ _
    · exact retryAll_eq_ops _ s
    · exact deleteAll_eq_ops _ _ s
    · rfl
  simp only [onCapabilityMessage, opsOf, lineOps]
  rw [hheard, hbody, foldl_append, foldl_append]
  split_ifs
  · rfl
  · rfl

theorem handle_eq_ops (ev : Event) :
    s.handle ssBlacklist ev = (opsOf ssBlacklist ev).foldl exec s := by
  cases ev with
  | cap m answers => exact onCapabilityMessage_eq_ops ssBlacklist s m answers
  | call c => rfl
  | welcome => rfl

end CIRCSock

/-! ## What `SendNextCap` does -/

theorem packCaps_spec (vsCaps pending : VCString) :
    ∃ taken, (packCaps vsCaps pending).1 = vsCaps ++ taken ∧ pending = taken ++ (packCaps vsCaps pending).2 := by
  induction pending generalizing vsCaps with
  | nil => exact ⟨[], (append_nil _).symm, rfl⟩
  | cons sNext pending ih =>
    unfold packCaps
    split_ifs with hfull
    · exact ⟨[], (append_nil _).symm, rfl⟩
    · obtain ⟨taken, hcaps, hrest⟩ := ih (vsCaps ++ [sNext])
      refine ⟨sNext :: taken, ?_, ?_⟩
      · rw [hcaps, append_assoc]
        rfl
      · rw [cons_append, ← hrest]

namespace CIRCSock

/-- nothing is left to request -/
def Done (s : CIRCSock) : Prop := s.ssPendingCaps.toList = [] ∧ s.ssPendingCapsPhase2.toList = []

instance (s : CIRCSock) : Decidable s.Done := inferInstanceAs (Decidable (_ ∧ _))

/-- **All that `SendNextCap` can do**: nothing, a request of the front of the pending set, a request of the first of a
refused batch, or the end. -/
theorem sendNextCap_cases (s : CIRCSock) :
    (s.sendNextCap = s ∧ (s.uCapPaused ≠ 0 ∨ (s.Done ∧ s.bAuthed = true))) ∨
    (s.uCapPaused = 0 ∧ ∃ vsCaps pending, vsCaps ≠ [] ∧ s.ssPendingCaps.toList = vsCaps ++ pending ∧
      s.sendNextCap = { s with ssPendingCaps := .ofList pending, log := .requested vsCaps :: s.log }) ∨
    (s.uCapPaused = 0 ∧ ∃ sCap, sCap ∈ s.ssPendingCapsPhase2 ∧ s.sendNextCap =
      { s with ssPendingCapsPhase2 := s.ssPendingCapsPhase2.erase sCap, log := .retried sCap :: s.log }) ∨
    (s.uCapPaused = 0 ∧ s.Done ∧ s.bAuthed = false ∧ s.sendNextCap = { s with log := .ended :: s.log }) := by
  by_cases hpaused : s.uCapPaused ≠ 0
  · exact .inl ⟨if_pos hpaused, .inl hpaused⟩
  rw [sendNextCap, if_neg hpaused]
  have hzero : s.uCapPaused = 0 := not_not.1 hpaused
  cases hbatch : s.ssPendingCaps.toList with
  | cons sCap pending =>
    obtain ⟨taken, hcaps, hrest⟩ := packCaps_spec [sCap] pending
    refine .inr (.inl ⟨hzero, _, _, ?_, ?_, rfl⟩)
    · rw [hcaps]
      exact cons_ne_nil _ _
    · rw [hcaps, append_assoc, ← hrest]
      rfl
  | nil =>
    cases hretry : s.ssPendingCapsPhase2.toList with
    | cons sCap rest =>
      have hmem : sCap ∈ s.ssPendingCapsPhase2 := by
        rw [← OrdSet.mem_toList, hretry]
        exact mem_cons_self
      exact .inr (.inr (.inl ⟨hzero, sCap, hmem, rfl⟩))
    | nil =>
      by_cases hauthed : s.bAuthed = true
      · exact .inl ⟨if_pos hauthed, .inr ⟨⟨hbatch, hretry⟩, hauthed⟩⟩
      · exact .inr (.inr (.inr ⟨hzero, ⟨hbatch, hretry⟩, Bool.eq_false_iff.2 hauthed, if_neg hauthed⟩))

end CIRCSock

end ZNC.Cap
