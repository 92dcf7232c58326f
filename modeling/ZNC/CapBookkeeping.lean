/-
The bookkeeping of capabilities over whole runs: what is requested how often, what is not requested any more, and what
counts as accepted.

`RemoveCap` takes a capability out of the pending and the accepted set, but leaves it among those of a refused batch, which
are requested one by one. A refusal of one capability removes the whole argument of the line, spaces included. A refused
batch is retried whatever happened to its members since the request. Runs in which none of this happens keep `Inv`.

Results:
- `handle_inv`: a line that is `EventOk` keeps it;
- `cap_bookkeeping`: in every run of such lines each capability is requested once in a batch and once alone between two
  offers, none is requested after it was deleted or refused alone, and the accepted ones were acknowledged last;
- `cap_requested_after_del`: a capability of a refused batch is requested after the server has deleted it.
-/
import ZNC.CapEnd

namespace ZNC.Cap

open Journal CIRCSock List OrdSet

/-! ## Entries -/

section Entries

variable (sCap : CString) (e : Entry)

def offers : Prop := e = .heard (.offered sCap)

/-- a request out of the pending set -/
def batches : Prop := ∃ vsCaps, e = .requested vsCaps ∧ sCap ∈ vsCaps

/-- a request for one of a refused batch -/
def retries : Prop := e = .retried sCap

/-- deleted, or refused alone -/
def bars : Prop := e = .heard (.deleted sCap) ∨ e = .heard (.naked sCap true)

def acks : Prop := e = .heard (.acked sCap)

/-- deleted, or refused -/
def denies : Prop := e = .heard (.deleted sCap) ∨ ∃ bAlone, e = .heard (.naked sCap bAlone)

/-- an entry that asks for nothing and refuses nothing -/
def Quiet : Prop := ∀ sCap, ¬batches sCap e ∧ ¬retries sCap e ∧ ¬bars sCap e ∧ ¬denies sCap e

instance : DecidablePred (offers sCap) := fun _ => inferInstanceAs (Decidable (_ = _))

instance : DecidablePred (retries sCap) := fun _ => inferInstanceAs (Decidable (_ = _))

instance : DecidablePred (bars sCap) := fun _ => inferInstanceAs (Decidable (_ ∨ _))

instance : DecidablePred (batches sCap)
  | .requested vsCaps => decidable_of_iff (sCap ∈ vsCaps) (by simp [batches])
  | .heard _ | .retried _ | .ended | .paused | .resumed => isFalse (by simp [batches])

end Entries

/-- the bookkeeping of a run, read off the journal, its newest entry first, and the accepted set -/
structure Bookkeeping (s : CIRCSock) : Prop where
  /-- between two requests in a batch the capability was offered -/
  once : ∀ sCap later e mid e' earlier, s.log = later ++ e :: (mid ++ e' :: earlier) →
    batches sCap e → batches sCap e' → ∃ x ∈ mid, offers sCap x
  distinct : ∀ vsCaps, Entry.requested vsCaps ∈ s.log → vsCaps.Nodup
  /-- between two requests alone the capability was offered -/
  onceAlone : ∀ sCap later e mid e' earlier, s.log = later ++ e :: (mid ++ e' :: earlier) →
    retries sCap e → retries sCap e' → ∃ x ∈ mid, offers sCap x
  /-- between its deletion, or refusal alone, and a later request the capability was offered -/
  barred : ∀ sCap later e mid e' earlier, s.log = later ++ e :: (mid ++ e' :: earlier) →
    (batches sCap e ∨ retries sCap e) → bars sCap e' → ∃ x ∈ mid, offers sCap x
  /-- since its last acknowledgement an accepted capability was neither refused nor deleted -/
  accepted : ∀ sCap ∈ s.ssAcceptedCaps, ∃ later e earlier, s.log = later ++ e :: earlier ∧ acks sCap e ∧
    ∀ x ∈ later, ¬denies sCap x

/-! ## The invariant -/

/-- what the sets say about the journal; `todo` are the steps still to do for a line -/
structure Inv (todo : List Op) (s : CIRCSock) : Prop where
  pendingFree : ∀ sCap ∈ s.ssPendingCaps, Clear (offers sCap) (bars sCap) s.log ∨ .remove sCap ∈ todo
  pendingOnce : ∀ sCap ∈ s.ssPendingCaps, Clear (offers sCap) (batches sCap) s.log
  retryFree : ∀ sCap ∈ s.ssPendingCapsPhase2, Clear (offers sCap) (bars sCap) s.log
  retryOnce : ∀ sCap ∈ s.ssPendingCapsPhase2, Clear (offers sCap) (retries sCap) s.log
  acked : ∀ sCap ∈ s.ssAcceptedCaps, Latest (acks sCap) (denies sCap) s.log ∨ .remove sCap ∈ todo
  distinct : ∀ vsCaps, Entry.requested vsCaps ∈ s.log → vsCaps.Nodup
  batchOnce : ∀ sCap, Always (fun e earlier => batches sCap e → Clear (offers sCap) (batches sCap) earlier) s.log
  aloneOnce : ∀ sCap, Always (fun e earlier => retries sCap e → Clear (offers sCap) (retries sCap) earlier) s.log
  namedFree : ∀ sCap, Always (fun e earlier => batches sCap e ∨ retries sCap e →
    Clear (offers sCap) (bars sCap) earlier) s.log

theorem inv_init : Inv [] init where
  pendingFree sCap hc := absurd hc (not_mem_empty sCap)
  pendingOnce sCap hc := absurd hc (not_mem_empty sCap)
  retryFree sCap hc := absurd hc (not_mem_empty sCap)
  retryOnce sCap hc := absurd hc (not_mem_empty sCap)
  acked sCap hc := absurd hc (not_mem_empty sCap)
  distinct _ hm := nomatch hm
  batchOnce _ := trivial
  aloneOnce _ := trivial
  namedFree _ := trivial

theorem Inv.bookkeeping {s : CIRCSock} (h : Inv [] s) : Bookkeeping s where
  once sCap := by
    refine (always_clear_iff ?_).1 (h.batchOnce sCap)
    intro e hb hoffer
    obtain ⟨vsCaps, he, -⟩ := hb
    rw [he] at hoffer
    cases hoffer
  distinct := h.distinct
  onceAlone sCap := by
    refine (always_clear_iff ?_).1 (h.aloneOnce sCap)
    intro e he hoffer
    rw [he] at hoffer
    cases hoffer
  barred sCap := by
    refine (always_clear_iff ?_).1 (h.namedFree sCap)
    intro e he hoffer
    rcases he with he | he
    · rw [he] at hoffer
      cases hoffer
    · rw [he] at hoffer
      cases hoffer
  accepted sCap hmem := by
    rcases h.acked sCap hmem with h | h
    · exact latest_iff.1 h
    · cases h

variable {todo : List Op}

theorem Inv.congr {s t : CIRCSock} (h : Inv todo s) (hpending : t.ssPendingCaps = s.ssPendingCaps)
    (hretry : t.ssPendingCapsPhase2 = s.ssPendingCapsPhase2) (haccepted : t.ssAcceptedCaps = s.ssAcceptedCaps)
    (hlog : t.log = s.log) : Inv todo t where
  pendingFree := by rw [hpending, hlog]; exact h.pendingFree
  pendingOnce := by rw [hpending, hlog]; exact h.pendingOnce
  retryFree := by rw [hretry, hlog]; exact h.retryFree
  retryOnce := by rw [hretry, hlog]; exact h.retryOnce
  acked := by rw [haccepted, hlog]; exact h.acked
  distinct := by rw [hlog]; exact h.distinct
  batchOnce := by rw [hlog]; exact h.batchOnce
  aloneOnce := by rw [hlog]; exact h.aloneOnce
  namedFree := by rw [hlog]; exact h.namedFree

theorem Inv.done {op : Op} {s : CIRCSock} (h : Inv (op :: todo) s) (hop : ∀ sCap, op ≠ .remove sCap) :
    Inv todo s := by
  have hmem : ∀ sCap, Op.remove sCap ∈ op :: todo → Op.remove sCap ∈ todo := by
    intro sCap hm
    rcases mem_cons.1 hm with hm | hm
    · exact absurd hm.symm (hop sCap)
    · exact hm
  exact { h with
    pendingFree := fun sCap hc => (h.pendingFree sCap hc).imp_right (hmem sCap)
    acked := fun sCap hc => (h.acked sCap hc).imp_right (hmem sCap) }

theorem Inv.quiet {s : CIRCSock} (h : Inv todo s) {e : Entry} (he : Quiet e) :
    Inv todo { s with log := e :: s.log } where
  pendingFree sCap hc := (h.pendingFree sCap hc).imp_left (Clear.step (he sCap).2.2.1)
  pendingOnce sCap hc := Clear.step (he sCap).1 (h.pendingOnce sCap hc)
  retryFree sCap hc := Clear.step (he sCap).2.2.1 (h.retryFree sCap hc)
  retryOnce sCap hc := Clear.step (he sCap).2.1 (h.retryOnce sCap hc)
  acked sCap hc := (h.acked sCap hc).imp_left (Latest.step (he sCap).2.2.2)
  distinct vsCaps hmem := by
    rcases mem_cons.1 hmem with hmem | hmem
    · cases vsCaps with
      | nil => exact nodup_nil
      | cons sCap vsCaps => exact absurd ⟨_, hmem.symm, mem_cons_self⟩ (he sCap).1
    · exact h.distinct vsCaps hmem
  batchOnce sCap := ⟨fun hb => absurd hb (he sCap).1, h.batchOnce sCap⟩
  aloneOnce sCap := ⟨fun hr => absurd hr (he sCap).2.1, h.aloneOnce sCap⟩
  namedFree sCap := by
    refine ⟨fun hn => ?_, h.namedFree sCap⟩
    rcases hn with hn | hn
    · exact absurd hn (he sCap).1
    · exact absurd hn (he sCap).2.1

theorem quiet_offered (sCap : CString) : Quiet (.heard (.offered sCap)) := by
  intro sCap
  simp [batches, retries, bars, denies]

theorem quiet_paused : Quiet .paused := by
  intro sCap
  simp [batches, retries, bars, denies]

theorem quiet_resumed : Quiet .resumed := by
  intro sCap
  simp [batches, retries, bars, denies]

theorem quiet_ended : Quiet .ended := by
  intro sCap
  simp [batches, retries, bars, denies]

/-! ## Steps -/

/-- **`SendNextCap` keeps the invariant**, unless it finds a pending capability that the line at hand removes. -/
theorem sendNextCap_inv {s : CIRCSock} (h : Inv todo s)
    (hremoved : s.uCapPaused = 0 → ∀ sCap ∈ s.ssPendingCaps, .remove sCap ∉ todo) : Inv todo s.sendNextCap := by
  rcases s.sendNextCap_cases with ⟨hsend, -⟩ | ⟨hzero, vsCaps, pending, -, hbatch, hsend⟩ | ⟨-, sCap, hmem, hsend⟩ |
      ⟨-, -, -, hsend⟩
  · rw [hsend]
    exact h
  · have hnodup : (vsCaps ++ pending).Nodup := hbatch ▸ s.ssPendingCaps.toList_nodup
    have hfront : ∀ sCap ∈ vsCaps, sCap ∈ s.ssPendingCaps := by
      intro sCap hc
      rw [← mem_toList, hbatch]
      exact mem_append_left _ hc
    have hrest : ∀ sCap ∈ OrdSet.ofList pending, sCap ∈ s.ssPendingCaps ∧ sCap ∉ vsCaps := by
      intro sCap hc
      rw [mem_ofList] at hc
      refine ⟨?_, fun hv => (nodup_append.1 hnodup).2.2 sCap hv sCap hc rfl⟩
      rw [← mem_toList, hbatch]
      exact mem_append_right _ hc
    have hfree : ∀ sCap ∈ vsCaps, Clear (offers sCap) (bars sCap) s.log := by
      intro sCap hc
      rcases h.pendingFree sCap (hfront sCap hc) with hclear | hm
      · exact hclear
      · exact absurd hm (hremoved hzero sCap (hfront sCap hc))
    have hnobar : ∀ sCap, ¬bars sCap (.requested vsCaps) := by simp [bars]
    rw [hsend]
    exact
      { pendingFree := fun sCap hc => (h.pendingFree sCap (hrest sCap hc).1).imp_left (Clear.step (hnobar sCap))
        pendingOnce := fun sCap hc => by
          refine Clear.step ?_ (h.pendingOnce sCap (hrest sCap hc).1)
          intro hb
          obtain ⟨caps, hcaps, hin⟩ := hb
          rw [← Entry.requested.inj hcaps] at hin
          exact (hrest sCap hc).2 hin
        retryFree := fun sCap hc => Clear.step (hnobar sCap) (h.retryFree sCap hc)
        retryOnce := fun sCap hc => Clear.step (by simp [retries]) (h.retryOnce sCap hc)
        acked := fun sCap hc => (h.acked sCap hc).imp_left (Latest.step (by simp [denies]))
        distinct := fun caps hm => by
          rcases mem_cons.1 hm with hm | hm
          · rw [Entry.requested.inj hm]
            exact (nodup_append.1 hnodup).1
          · exact h.distinct caps hm
        batchOnce := fun sCap => by
          refine ⟨fun hb => ?_, h.batchOnce sCap⟩
          obtain ⟨caps, hcaps, hin⟩ := hb
          rw [← Entry.requested.inj hcaps] at hin
          exact h.pendingOnce sCap (hfront sCap hin)
        aloneOnce := fun sCap => ⟨fun hr => (by cases hr), h.aloneOnce sCap⟩
        namedFree := fun sCap => by
          refine ⟨fun hn => ?_, h.namedFree sCap⟩
          rcases hn with ⟨caps, hcaps, hin⟩ | hn
          · rw [← Entry.requested.inj hcaps] at hin
            exact hfree sCap hin
          · cases hn }
  · have hnobar : ∀ sCap', ¬bars sCap' (.retried sCap) := by simp [bars]
    rw [hsend]
    exact
      { pendingFree := fun sCap' hc => (h.pendingFree sCap' hc).imp_left (Clear.step (hnobar sCap'))
        pendingOnce := fun sCap' hc => Clear.step (by simp [batches]) (h.pendingOnce sCap' hc)
        retryFree := fun sCap' hc => Clear.step (hnobar sCap') (h.retryFree sCap' ((mem_erase ..).1 hc).2)
        retryOnce := fun sCap' hc => by
          obtain ⟨hne, hc⟩ := (mem_erase ..).1 hc
          refine Clear.step ?_ (h.retryOnce sCap' hc)
          intro hr
          exact hne (Entry.retried.inj hr).symm
        acked := fun sCap' hc => (h.acked sCap' hc).imp_left (Latest.step (by simp [denies]))
        distinct := fun caps hm => by
          rcases mem_cons.1 hm with hm | hm
          · cases hm
          · exact h.distinct caps hm
        batchOnce := fun sCap' => by
          refine ⟨fun hb => ?_, h.batchOnce sCap'⟩
          obtain ⟨caps, hcaps, -⟩ := hb
          cases hcaps
        aloneOnce := fun sCap' => by
          refine ⟨fun hr => ?_, h.aloneOnce sCap'⟩
          rw [← Entry.retried.inj hr]
          exact h.retryOnce sCap hmem
        namedFree := fun sCap' => by
          refine ⟨fun hn => ?_, h.namedFree sCap'⟩
          rcases hn with ⟨caps, hcaps, -⟩ | hn
          · cases hcaps
          · rw [← Entry.retried.inj hn]
            exact h.retryFree sCap hmem }
  · rw [hsend]
    exact h.quiet quiet_ended

theorem sendNextCap_log (s : CIRCSock) :
    ∃ new, s.sendNextCap.log = new ++ s.log ∧ ∀ e ∈ new, ∀ sCap, ¬bars sCap e ∧ ¬denies sCap e := by
  rcases s.sendNextCap_cases with ⟨hsend, -⟩ | ⟨-, vsCaps, pending, -, -, hsend⟩ | ⟨-, sCap, -, hsend⟩ |
      ⟨-, -, -, hsend⟩
  · exact ⟨[], by rw [hsend]; rfl, fun e he => nomatch he⟩
  · refine ⟨[.requested vsCaps], by rw [hsend]; rfl, fun e he sCap => ?_⟩
    rw [mem_singleton.1 he]
    simp [bars, denies]
  · refine ⟨[.retried sCap], by rw [hsend]; rfl, fun e he sCap' => ?_⟩
    rw [mem_singleton.1 he]
    simp [bars, denies]
  · refine ⟨[.ended], by rw [hsend]; rfl, fun e he sCap => ?_⟩
    rw [mem_singleton.1 he]
    simp [bars, denies]

/-- what the steps of a line rely on: the capabilities it has offered so far, those it acknowledges, and those of the
batch it refuses -/
structure Ready (fresh acked retry : VCString) (log : List Entry) : Prop where
  fresh : ∀ sCap ∈ fresh, Clear (offers sCap) (bars sCap) log
  acked : ∀ sCap ∈ acked, Latest (acks sCap) (denies sCap) log
  retry : ∀ sCap ∈ retry, Clear (offers sCap) (bars sCap) log ∧ Clear (offers sCap) (retries sCap) log

theorem Ready.append {fresh acked : VCString} {log : List Entry} (h : Ready fresh acked [] log) {new : List Entry}
    (hnew : ∀ e ∈ new, ∀ sCap, ¬bars sCap e ∧ ¬denies sCap e) : Ready fresh acked [] (new ++ log) where
  fresh sCap hc := Clear.append (fun e he => (hnew e he sCap).1) (h.fresh sCap hc)
  acked sCap hc := Latest.append (fun e he => (hnew e he sCap).2) (h.acked sCap hc)
  retry _ hc := nomatch hc

theorem ready_nil (log : List Entry) : Ready [] [] [] log where
  fresh _ hc := nomatch hc
  acked _ hc := nomatch hc
  retry _ hc := nomatch hc

theorem Ready.quiet {fresh acked retry : VCString} {log : List Entry} (h : Ready fresh acked retry log) {e : Entry}
    (he : Quiet e) : Ready fresh acked retry (e :: log) where
  fresh sCap hc := Clear.step (he sCap).2.2.1 (h.fresh sCap hc)
  acked sCap hc := Latest.step (he sCap).2.2.2 (h.acked sCap hc)
  retry sCap hc := (h.retry sCap hc).imp (Clear.step (he sCap).2.2.1) (Clear.step (he sCap).2.1)

/-- the steps of a line behind what it says about capabilities: it wants what it has offered, accepts what it
acknowledges, retries what it refuses, without a hook, and ends with `SendNextCap` -/
def Shaped : VCString → VCString → VCString → List Op → Prop
  | _, _, _, [] => True
  | fresh, acked, retry, .hear h :: todo => ∃ sCap, h = .offered sCap ∧ Shaped (sCap :: fresh) acked retry todo
  | fresh, acked, retry, .want sCap :: todo => sCap ∈ fresh ∧ Shaped fresh acked retry todo
  | fresh, acked, retry, .accept sCap :: todo => sCap ∈ acked ∧ Shaped fresh acked retry todo
  | fresh, acked, retry, .retryLater sCap :: todo => sCap ∈ retry ∧ Shaped fresh acked retry todo
  | fresh, acked, retry, .call _ :: todo => retry = [] ∧ Shaped fresh acked retry todo
  | _, _, _, .sendNext :: todo => todo = []
  | fresh, acked, retry, .list _ _ :: todo => Shaped fresh acked retry todo
  | fresh, acked, retry, .remove _ :: todo => Shaped fresh acked retry todo
  | fresh, acked, retry, .unlist _ :: todo => Shaped fresh acked retry todo
  | fresh, acked, retry, .welcome :: todo => Shaped fresh acked retry todo

/-- the invariant in the middle of a line -/
def LineInv (todo : List Op) (s : CIRCSock) : Prop :=
  Inv todo s ∧ ∃ fresh acked retry, Shaped fresh acked retry todo ∧ Ready fresh acked retry s.log

/-- **What hooks must leave alone.** When a hook lifts the last pause, no capability that the line still removes is pending;
and no hook has an offered capability requested that is pending again afterwards. -/
def HookOk (todo : List Op) (s : CIRCSock) : Op → Prop
  | .call .ResumeCap => s.uCapPaused - 1 = 0 → ∀ sCap ∈ s.ssPendingCaps, .remove sCap ∉ todo
  | .want sCap => Clear (offers sCap) (batches sCap) s.log
  | _ => True

instance (todo : List Op) (s : CIRCSock) : (op : Op) → Decidable (HookOk todo s op)
  | .call .ResumeCap =>
    decidable_of_iff (s.uCapPaused - 1 = 0 → ∀ sCap ∈ s.ssPendingCaps.toList, .remove sCap ∉ todo) Iff.rfl
  | .want sCap => inferInstanceAs (Decidable (Clear (offers sCap) (batches sCap) s.log))
  | .hear _ | .call .PauseCap | .list _ _ | .accept _ | .remove _ | .unlist _ | .retryLater _ | .sendNext | .welcome =>
    isTrue trivial

theorem exec_inv (op : Op) (todo : List Op) (s : CIRCSock) (h : LineInv (op :: todo) s) (hok : HookOk todo s op) :
    LineInv todo (s.exec op) := by
  obtain ⟨hinv, fresh, acked, retry, hshape, hready⟩ := h
  cases op with
  | hear heard =>
    obtain ⟨sCap, rfl, hshape⟩ := hshape
    have hready' := hready.quiet (quiet_offered sCap)
    refine ⟨(hinv.done (by simp)).quiet (quiet_offered sCap), sCap :: fresh, acked, retry, hshape,
      { hready' with fresh := fun sCap' hc => ?_ }⟩
    rcases mem_cons.1 hc with rfl | hc
    · have hoffer : offers sCap' (.heard (.offered sCap')) := rfl
      exact Clear.reset hoffer _
    · exact hready'.fresh sCap' hc
  | call c =>
    obtain ⟨rfl, hshape⟩ := hshape
    have hdone := hinv.done (by simp)
    cases c with
    | PauseCap => exact ⟨(hdone.quiet quiet_paused).congr rfl rfl rfl rfl, fresh, acked, [], hshape,
        hready.quiet quiet_paused⟩
    | ResumeCap =>
      set t : CIRCSock := { s with uCapPaused := s.uCapPaused - 1, log := .resumed :: s.log } with ht
      have htinv : Inv todo t := (hdone.quiet quiet_resumed).congr rfl rfl rfl rfl
      obtain ⟨new, hlog, hnew⟩ := sendNextCap_log t
      refine ⟨sendNextCap_inv htinv hok, fresh, acked, [], hshape, ?_⟩
      have hready' : Ready fresh acked [] t.log := hready.quiet quiet_resumed
      rw [show s.exec (.call .ResumeCap) = t.sendNextCap from rfl, hlog]
      exact hready'.append hnew
  | list sCap sValue =>
    exact ⟨(hinv.done (by simp)).congr rfl rfl rfl rfl, fresh, acked, retry, hshape, hready⟩
  | unlist sCap => exact ⟨(hinv.done (by simp)).congr rfl rfl rfl rfl, fresh, acked, retry, hshape, hready⟩
  | welcome => exact ⟨(hinv.done (by simp)).congr rfl rfl rfl rfl, fresh, acked, retry, hshape, hready⟩
  | want sCap =>
    have hinv := hinv.done (by simp)
    refine ⟨?_, fresh, acked, retry, hshape.2, hready⟩
    exact
      { hinv with
        pendingFree := fun sCap' hc => by
          rcases (mem_insert ..).1 hc with rfl | hc
          · exact .inl (hready.fresh _ hshape.1)
          · exact hinv.pendingFree sCap' hc
        pendingOnce := fun sCap' hc => by
          rcases (mem_insert ..).1 hc with rfl | hc
          · exact hok
          · exact hinv.pendingOnce sCap' hc }
  | accept sCap =>
    have hinv := hinv.done (by simp)
    obtain ⟨b1, b2, b3, b4, hset⟩ := s.setSupported_eq sCap true
    simp only [exec, hset]
    refine ⟨?_, fresh, acked, retry, hshape.2, hready⟩
    exact
      { hinv with
        acked := fun sCap' hc => by
          rcases (mem_insert ..).1 hc with rfl | hc
          · exact .inl (hready.acked _ hshape.1)
          · exact hinv.acked sCap' hc }
  | remove sCap =>
    obtain ⟨b1, b2, b3, b4, hset⟩ := s.setSupported_eq sCap false
    simp only [exec, hset]
    refine ⟨?_, fresh, acked, retry, hshape, hready⟩
    have hmem : ∀ sCap', sCap' ≠ sCap → Op.remove sCap' ∈ Op.remove sCap :: todo → Op.remove sCap' ∈ todo := by
      intro sCap' hne hm
      rcases mem_cons.1 hm with hm | hm
      · exact absurd (Op.remove.inj hm) hne
      · exact hm
    exact
      { hinv with
        pendingFree := fun sCap' hc => by
          obtain ⟨hne, hc⟩ := (mem_erase ..).1 hc
          exact (hinv.pendingFree sCap' hc).imp_right (hmem sCap' hne)
        pendingOnce := fun sCap' hc => hinv.pendingOnce sCap' ((mem_erase ..).1 hc).2
        acked := fun sCap' hc => by
          obtain ⟨hne, hc⟩ := (mem_erase ..).1 hc
          exact (hinv.acked sCap' hc).imp_right (hmem sCap' hne) }
  | retryLater sCap =>
    have hinv := hinv.done (by simp)
    refine ⟨?_, fresh, acked, retry, hshape.2, hready⟩
    exact
      { hinv with
        retryFree := fun sCap' hc => by
          rcases (mem_insert ..).1 hc with rfl | hc
          · exact (hready.retry _ hshape.1).1
          · exact hinv.retryFree sCap' hc
        retryOnce := fun sCap' hc => by
          rcases (mem_insert ..).1 hc with rfl | hc
          · exact (hready.retry _ hshape.1).2
          · exact hinv.retryOnce sCap' hc }
  | sendNext =>
    obtain rfl : todo = [] := hshape
    exact ⟨sendNextCap_inv (hinv.done (by simp)) fun _ _ _ => not_mem_nil, [], [], [], trivial, ready_nil _⟩

/-! ## The steps of a line -/

theorem shaped_hookOps {fresh acked : VCString} (a : Answer) (h : Shaped fresh acked [] todo) :
    Shaped fresh acked [] (hookOps a ++ todo) := by
  unfold hookOps
  induction a.calls with
  | nil => exact h
  | cons c calls ih => exact ⟨rfl, ih⟩

theorem shaped_offerOps (ssBlacklist : SCString) (tokens : VCString) (answers : List Answer) (fresh : VCString)
    (h : ∀ fresh, Shaped fresh [] [] todo) :
    Shaped fresh [] [] (offerOps ssBlacklist tokens answers ++ todo) := by
  induction tokens generalizing answers fresh with
  | nil => exact h fresh
  | cons sToken tokens ih =>
    simp only [offerOps]
    split_ifs with hblack hwant
    · exact ⟨_, rfl, ih _ _⟩
    · have hwanted : Shaped ((capOf sToken).1 :: fresh) [] []
          (.want (capOf sToken).1 :: (offerOps ssBlacklist tokens answers.tail ++ todo)) :=
        ⟨mem_cons_self, ih _ _⟩
      rw [cons_append, cons_append, append_assoc]
      exact ⟨_, rfl, shaped_hookOps _ hwanted⟩
    · rw [cons_append, cons_append, append_assoc]
      exact ⟨_, rfl, shaped_hookOps _ (ih _ _)⟩

variable (caps : VCString)

theorem shaped_acceptOps {acked : VCString} (hcaps : ∀ sCap ∈ caps, sCap ∈ acked) (answers : List Answer)
    (h : Shaped [] acked [] todo) : Shaped [] acked [] (acceptOps caps answers ++ todo) := by
  induction caps generalizing answers with
  | nil => exact h
  | cons sCap caps ih =>
    simp only [acceptOps, append_assoc, cons_append]
    exact shaped_hookOps _
      ⟨hcaps sCap mem_cons_self, ih (fun sCap' hc => hcaps sCap' (mem_cons_of_mem _ hc)) _⟩

theorem shaped_deleteOps (answers : List Answer) (h : Shaped [] [] [] todo) :
    Shaped [] [] [] (deleteOps caps answers ++ todo) := by
  induction caps generalizing answers with
  | nil => exact h
  | cons sCap caps ih =>
    simp only [deleteOps, append_assoc, cons_append]
    exact shaped_hookOps _ (ih _)

theorem mem_deleteOps (answers : List Answer) :
    ∀ sCap ∈ caps, Op.remove sCap ∈ deleteOps caps answers := by
  induction caps generalizing answers with
  | nil => exact fun sCap hc => nomatch hc
  | cons sCap' caps ih =>
    intro sCap hc
    rw [deleteOps, mem_append]
    rcases mem_cons.1 hc with rfl | hc
    · exact .inr mem_cons_self
    · exact .inr (mem_cons_of_mem _ (mem_cons_of_mem _ (ih _ sCap hc)))

theorem shaped_retryOps {retry : VCString} (caps : VCString) (hcaps : ∀ sCap ∈ caps, sCap ∈ retry)
    (h : Shaped [] [] retry todo) : Shaped [] [] retry (caps.map .retryLater ++ todo) := by
  induction caps with
  | nil => exact h
  | cons sCap caps ih => exact
      ⟨hcaps sCap mem_cons_self, ih fun sCap' hc => hcaps sCap' (mem_cons_of_mem _ hc)⟩

theorem shaped_end (fresh acked retry : VCString) (m : CMessage) :
    Shaped fresh acked retry (if bMore m then [] else [.sendNext]) := by
  split_ifs
  · trivial
  · rfl

/-! ## Lines -/

theorem hearAll_eq (hs : List Heard) (s : CIRCSock) :
    hs.foldl hear s = { s with log := (hs.map Entry.heard).reverse ++ s.log } := by
  induction hs generalizing s with
  | nil => rfl
  | cons h hs ih =>
    rw [foldl_cons, ih, map_cons, reverse_cons, append_assoc]
    rfl

theorem mem_hearAll {hs : List Heard} {e : Entry} (he : e ∈ (hs.map Entry.heard).reverse) : ∃ h ∈ hs, e = .heard h := by
  obtain ⟨h, hh, rfl⟩ := mem_map.1 (mem_reverse.1 he)
  exact ⟨h, hh, rfl⟩

theorem Inv.hearAll {s : CIRCSock} (h : Inv [] s) (hs : List Heard)
    (hpending : ∀ sCap ∈ s.ssPendingCaps, (∃ h ∈ hs, bars sCap (.heard h)) → .remove sCap ∈ todo)
    (hretry : ∀ sCap ∈ s.ssPendingCapsPhase2, ∀ h ∈ hs, ¬bars sCap (.heard h))
    (haccepted : ∀ sCap ∈ s.ssAcceptedCaps, (∃ h ∈ hs, denies sCap (.heard h)) → .remove sCap ∈ todo) :
    Inv todo (hs.foldl hear s) := by
  have hnobatch : ∀ sCap, ∀ e ∈ (hs.map Entry.heard).reverse, ¬batches sCap e := by
    intro sCap e he hb
    obtain ⟨caps, hcaps, -⟩ := hb
    obtain ⟨h, -, rfl⟩ := mem_hearAll he
    cases hcaps
  have hnoretry : ∀ sCap, ∀ e ∈ (hs.map Entry.heard).reverse, ¬retries sCap e := by
    intro sCap e he hr
    obtain ⟨h, -, rfl⟩ := mem_hearAll he
    cases hr
  rw [hearAll_eq]
  exact
    { pendingFree := fun sCap hc => by
        by_cases hbar : ∃ h ∈ hs, bars sCap (.heard h)
        · exact .inr (hpending sCap hc hbar)
        · refine .inl (Clear.append (fun e he hb => hbar ?_) ?_)
          · obtain ⟨h, hh, rfl⟩ := mem_hearAll he
            exact ⟨h, hh, hb⟩
          · exact (h.pendingFree sCap hc).resolve_right not_mem_nil
      pendingOnce := fun sCap hc => Clear.append (hnobatch sCap) (h.pendingOnce sCap hc)
      retryFree := fun sCap hc => by
        refine Clear.append (fun e he => ?_) (h.retryFree sCap hc)
        obtain ⟨h, hh, rfl⟩ := mem_hearAll he
        exact hretry sCap hc h hh
      retryOnce := fun sCap hc => Clear.append (hnoretry sCap) (h.retryOnce sCap hc)
      acked := fun sCap hc => by
        by_cases hdeny : ∃ h ∈ hs, denies sCap (.heard h)
        · exact .inr (haccepted sCap hc hdeny)
        · refine .inl (Latest.append (fun e he hd => hdeny ?_) ?_)
          · obtain ⟨h, hh, rfl⟩ := mem_hearAll he
            exact ⟨h, hh, hd⟩
          · exact (h.acked sCap hc).resolve_right not_mem_nil
      distinct := fun caps hm => by
        rcases mem_append.1 hm with hm | hm
        · obtain ⟨h, -, heq⟩ := mem_hearAll hm
          cases heq
        · exact h.distinct caps hm
      batchOnce := fun sCap => Always.append (fun e he _ hb => absurd hb (hnobatch sCap e he)) (h.batchOnce sCap)
      aloneOnce := fun sCap => Always.append (fun e he _ hr => absurd hr (hnoretry sCap e he)) (h.aloneOnce sCap)
      namedFree := fun sCap => by
        refine Always.append (fun e he _ hn => ?_) (h.namedFree sCap)
        rcases hn with hn | hn
        · exact absurd hn (hnobatch sCap e he)
        · exact absurd hn (hnoretry sCap e he) }

/-- **What a line of the server must leave alone.** CAP DEL names no capability of a refused batch. CAP NAK for one capability
names none of a refused batch, and has it as its whole argument if it is pending or accepted. CAP NAK for several names none
that is accepted, was deleted or refused alone, or was requested alone, since its last offer. -/
def LineOk (s : CIRCSock) (m : CMessage) : Prop :=
  (sSubCmd m = lit "DEL" → ∀ sCap ∈ vsTokens m, sCap ∉ s.ssPendingCapsPhase2) ∧
  (sSubCmd m = lit "NAK" → (vsTokens m).length = 1 → ∀ sCap ∈ vsTokens m, sCap ∉ s.ssPendingCapsPhase2 ∧
    (sArgs m = sCap ∨ (sCap ∉ s.ssPendingCaps ∧ sCap ∉ s.ssAcceptedCaps))) ∧
  (sSubCmd m = lit "NAK" → (vsTokens m).length ≠ 1 → ∀ sCap ∈ vsTokens m, sCap ∉ s.ssAcceptedCaps ∧
    Clear (offers sCap) (bars sCap) s.log ∧ Clear (offers sCap) (retries sCap) s.log)

instance (s : CIRCSock) (m : CMessage) : Decidable (LineOk s m) := inferInstanceAs (Decidable (_ ∧ _ ∧ _))

/-- the conditions on an event -/
def EventOk (ssBlacklist : SCString) (s : CIRCSock) : Event → Prop
  | .cap m answers => LineOk s m ∧ Along exec HookOk (lineOps ssBlacklist m answers) ((heard m).foldl hear s)
  | .call _ => True
  | .welcome => True

instance (ssBlacklist : SCString) (s : CIRCSock) : (ev : Event) → Decidable (EventOk ssBlacklist s ev)
  | .cap _ _ => inferInstanceAs (Decidable (_ ∧ _))
  | .call _ | .welcome => isTrue trivial

theorem mem_answer {b : Bool} {caps : VCString} {f : CString → Heard} {h : Heard}
    (hh : h ∈ (if b then [] else [Heard.answered]) ++ caps.map f) : h = .answered ∨ ∃ sCap ∈ caps, h = f sCap := by
  rcases mem_append.1 hh with hh | hh
  · left
    split_ifs at hh
    · cases hh
    · exact mem_singleton.1 hh
  · obtain ⟨sCap, hc, rfl⟩ := mem_map.1 hh
    exact .inr ⟨sCap, hc, rfl⟩

theorem denies_of_bars {sCap : CString} {e : Entry} (hb : bars sCap e) : denies sCap e :=
  hb.imp_right fun hb => ⟨true, hb⟩

section Answers

variable {m : CMessage} {h : Heard} {sCap : CString}

theorem heard_ack (hack : sSubCmd m = lit "ACK") :
    heard m = (if bMore m then [] else [.answered]) ++ (vsTokens m).map .acked := if_pos hack

theorem heard_nak (hnak : sSubCmd m = lit "NAK") :
    heard m = (if bMore m then [] else [.answered]) ++ (vsTokens m).map (Heard.naked · ((vsTokens m).length = 1)) := by
  rw [heard, hnak, if_neg (by decide), if_pos rfl]

theorem heard_del (hdel : sSubCmd m = lit "DEL") : heard m = (vsTokens m).map .deleted := by
  rw [heard, hdel, if_neg (by decide), if_neg (by decide), if_pos rfl]

theorem not_denies_ack (hack : sSubCmd m = lit "ACK") (hh : h ∈ heard m) : ¬denies sCap (.heard h) := by
  rw [heard_ack hack] at hh
  rcases mem_answer hh with rfl | ⟨sCap', -, rfl⟩
  · simp [denies]
  · simp [denies]

theorem mem_of_denies_nak (hnak : sSubCmd m = lit "NAK") (hh : h ∈ heard m) (hd : denies sCap (.heard h)) :
    sCap ∈ vsTokens m := by
  rw [heard_nak hnak] at hh
  rcases mem_answer hh with rfl | ⟨sCap', hc, rfl⟩
  · simp [denies] at hd
  · simp only [denies, Entry.heard.injEq, reduceCtorEq, Heard.naked.injEq, false_or] at hd
    obtain ⟨_, rfl, -⟩ := hd
    exact hc

theorem alone_of_bars_nak (hnak : sSubCmd m = lit "NAK") (hh : h ∈ heard m) (hb : bars sCap (.heard h)) :
    (vsTokens m).length = 1 := by
  rw [heard_nak hnak] at hh
  rcases mem_answer hh with rfl | ⟨sCap', -, rfl⟩
  · simp [bars] at hb
  · simp only [bars, Entry.heard.injEq, reduceCtorEq, Heard.naked.injEq, false_or, decide_eq_true_eq] at hb
    exact hb.2

theorem mem_of_denies_del (hdel : sSubCmd m = lit "DEL") (hh : h ∈ heard m) (hd : denies sCap (.heard h)) :
    sCap ∈ vsTokens m := by
  rw [heard_del hdel] at hh
  obtain ⟨sCap', hc, rfl⟩ := mem_map.1 hh
  simp only [denies, Entry.heard.injEq, Heard.deleted.injEq, reduceCtorEq, exists_const, or_false] at hd
  exact hd ▸ hc

end Answers

section Line

variable (ssBlacklist : SCString) {s : CIRCSock} {m : CMessage} (answers : List Answer)

theorem ack_inv (h : Inv [] s) (hack : sSubCmd m = lit "ACK") :
    LineInv (lineOps ssBlacklist m answers) ((heard m).foldl hear s) := by
  rw [lineOps, bodyOps, hack, if_neg (by decide), if_pos rfl]
  refine ⟨h.hearAll _ ?_ ?_ ?_, [], vsTokens m, [], ?_, ?_⟩
  · rintro sCap - ⟨x, hx, hb⟩
    exact absurd (denies_of_bars hb) (not_denies_ack hack hx)
  · exact fun sCap _ x hx hb => not_denies_ack hack hx (denies_of_bars hb)
  · rintro sCap - ⟨x, hx, hd⟩
    exact absurd hd (not_denies_ack hack hx)
  · exact shaped_acceptOps _ (fun _ hc => hc) _ (shaped_end _ _ _ m)
  · rw [hearAll_eq]
    refine { ready_nil _ with acked := fun sCap hc => ?_ }
    have hmem : Entry.heard (.acked sCap) ∈ ((heard m).map Entry.heard).reverse := by
      rw [mem_reverse, heard_ack hack]
      exact mem_map_of_mem (mem_append_right _ (mem_map_of_mem hc))
    have hacks : acks sCap (.heard (.acked sCap)) := rfl
    refine Latest.of_mem (fun e he => ?_) hmem hacks _
    obtain ⟨x, hx, rfl⟩ := mem_hearAll he
    exact not_denies_ack hack hx

theorem nakOne_inv (h : Inv [] s) (hnak : sSubCmd m = lit "NAK") (hone : (vsTokens m).length = 1)
    (hok : ∀ sCap ∈ vsTokens m, sCap ∉ s.ssPendingCapsPhase2 ∧
      (sArgs m = sCap ∨ (sCap ∉ s.ssPendingCaps ∧ sCap ∉ s.ssAcceptedCaps))) :
    LineInv (lineOps ssBlacklist m answers) ((heard m).foldl hear s) := by
  rw [lineOps, bodyOps, hnak, if_neg (by decide), if_neg (by decide), if_pos rfl, if_pos hone, append_assoc]
  have hremove : ∀ sCap ∈ vsTokens m, sCap ∈ s.ssPendingCaps ∨ sCap ∈ s.ssAcceptedCaps →
      Op.remove sCap ∈ hookOps (answers.headD .none) ++
        ([.remove (sArgs m)] ++ if bMore m then [] else [.sendNext]) := by
    intro sCap hc hset
    rcases (hok sCap hc).2 with harg | ⟨hp, ha⟩
    · rw [harg]
      exact mem_append_right _ mem_cons_self
    · rcases hset with hset | hset
      · exact absurd hset hp
      · exact absurd hset ha
  refine ⟨h.hearAll _ ?_ ?_ ?_, [], [], [], shaped_hookOps _ (shaped_end [] [] [] m), ready_nil _⟩
  · rintro sCap hp ⟨x, hx, hb⟩
    exact hremove sCap (mem_of_denies_nak hnak hx (denies_of_bars hb)) (.inl hp)
  · exact fun sCap hr x hx hb => (hok sCap (mem_of_denies_nak hnak hx (denies_of_bars hb))).1 hr
  · rintro sCap ha ⟨x, hx, hd⟩
    exact hremove sCap (mem_of_denies_nak hnak hx hd) (.inr ha)

theorem nakAll_inv (h : Inv [] s) (hnak : sSubCmd m = lit "NAK") (hone : (vsTokens m).length ≠ 1)
    (hok : ∀ sCap ∈ vsTokens m, sCap ∉ s.ssAcceptedCaps ∧
      Clear (offers sCap) (bars sCap) s.log ∧ Clear (offers sCap) (retries sCap) s.log) :
    LineInv (lineOps ssBlacklist m answers) ((heard m).foldl hear s) := by
  rw [lineOps, bodyOps, hnak, if_neg (by decide), if_neg (by decide), if_pos rfl, if_neg hone]
  refine ⟨h.hearAll _ ?_ ?_ ?_, [], [], vsTokens m, shaped_retryOps _ (fun _ hc => hc) (shaped_end _ _ _ m), ?_⟩
  · rintro sCap - ⟨x, hx, hb⟩
    exact absurd (alone_of_bars_nak hnak hx hb) hone
  · exact fun sCap _ x hx hb => hone (alone_of_bars_nak hnak hx hb)
  · rintro sCap ha ⟨x, hx, hd⟩
    exact absurd ha (hok sCap (mem_of_denies_nak hnak hx hd)).1
  · rw [hearAll_eq]
    refine { ready_nil _ with retry := fun sCap hc => ?_ }
    obtain ⟨-, hfree, honce⟩ := hok sCap hc
    refine ⟨Clear.append (fun e he hb => ?_) hfree, Clear.append (fun e he hr => ?_) honce⟩
    · obtain ⟨x, hx, rfl⟩ := mem_hearAll he
      exact hone (alone_of_bars_nak hnak hx hb)
    · obtain ⟨x, -, rfl⟩ := mem_hearAll he
      cases hr

theorem del_inv (h : Inv [] s) (hdel : sSubCmd m = lit "DEL")
    (hok : ∀ sCap ∈ vsTokens m, sCap ∉ s.ssPendingCapsPhase2) :
    LineInv (lineOps ssBlacklist m answers) ((heard m).foldl hear s) := by
  have hremove : ∀ sCap ∈ vsTokens m, Op.remove sCap ∈
      deleteOps (vsTokens m) answers ++ if bMore m then [] else [.sendNext] :=
    fun sCap hc => mem_append_left _ (mem_deleteOps _ answers sCap hc)
  rw [lineOps, bodyOps, hdel, if_neg (by decide), if_neg (by decide), if_neg (by decide), if_pos rfl]
  refine ⟨h.hearAll _ ?_ ?_ ?_, [], [], [], shaped_deleteOps _ _ (shaped_end [] [] [] m), ready_nil _⟩
  · rintro sCap - ⟨x, hx, hb⟩
    exact hremove sCap (mem_of_denies_del hdel hx (denies_of_bars hb))
  · exact fun sCap hr x hx hb => hok sCap (mem_of_denies_del hdel hx (denies_of_bars hb)) hr
  · rintro sCap - ⟨x, hx, hd⟩
    exact hremove sCap (mem_of_denies_del hdel hx hd)

theorem line_inv (h : Inv [] s) (hok : LineOk s m) :
    LineInv (lineOps ssBlacklist m answers) ((heard m).foldl hear s) := by
  obtain ⟨hdel, hnak, hnaks⟩ := hok
  by_cases hack : sSubCmd m = lit "ACK"
  · exact ack_inv ssBlacklist answers h hack
  by_cases hnaked : sSubCmd m = lit "NAK"
  · by_cases hone : (vsTokens m).length = 1
    · exact nakOne_inv ssBlacklist answers h hnaked hone (hnak hnaked hone)
    · exact nakAll_inv ssBlacklist answers h hnaked hone (hnaks hnaked hone)
  by_cases hdeleted : sSubCmd m = lit "DEL"
  · exact del_inv ssBlacklist answers h hdeleted (hdel hdeleted)
  -- nothing is heard in any other line
  have hheard : heard m = [] := by rw [heard, if_neg hack, if_neg hnaked, if_neg hdeleted]
  have hinv : Inv (lineOps ssBlacklist m answers) s := h.hearAll [] (by simp) (by simp) (by simp)
  rw [hheard]
  refine ⟨hinv, [], [], [], ?_, ready_nil _⟩
  by_cases hls : sSubCmd m = lit "LS" ∨ sSubCmd m = lit "NEW"
  · rw [lineOps, bodyOps, if_pos hls]
    exact shaped_offerOps ssBlacklist _ _ _ fun fresh => shaped_end fresh [] [] m
  · rw [lineOps, bodyOps, if_neg hls, if_neg hack, if_neg hnaked, if_neg hdeleted]
    exact shaped_end [] [] [] m

end Line

theorem handle_inv (ssBlacklist : SCString) {s : CIRCSock} (h : Inv [] s) {ev : Event}
    (hok : EventOk ssBlacklist s ev) :
    Inv [] (s.handle ssBlacklist ev) := by
  have hskip : ∀ op, Inv [op] s :=
    fun op => { h with
      pendingFree := fun sCap hc => (h.pendingFree sCap hc).imp_right (mem_cons_of_mem _)
      acked := fun sCap hc => (h.acked sCap hc).imp_right (mem_cons_of_mem _) }
  cases ev with
  | cap m answers =>
    have hline := along_inv exec exec_inv _ _ (line_inv ssBlacklist answers h hok.1) hok.2
    rw [handle, onCapabilityMessage_eq_ops, opsOf, foldl_append, foldl_map]
    exact hline.1
  | call c =>
    have hstep : LineInv [.call c] s := ⟨hskip _, [], [], [], ⟨rfl, trivial⟩, ready_nil _⟩
    refine (exec_inv (.call c) [] s hstep ?_).1
    cases c with
    | PauseCap => trivial
    | ResumeCap => exact fun _ _ _ => not_mem_nil
  | welcome => exact (exec_inv .welcome [] s ⟨hskip _, [], [], [], trivial, ready_nil _⟩ trivial).1

/-! ## Runs -/

/-- **The bookkeeping of whole runs.** In every run whose events meet the conditions, whatever the server sends and the
modules call: between two offers a capability is requested once in a batch and once alone, after its deletion or refusal
alone it is not requested before it is offered again, and an accepted one was acknowledged last. -/
theorem cap_bookkeeping (ssBlacklist : SCString) (evs : List Event)
    (hok : Along (handle ssBlacklist) (fun _ => EventOk ssBlacklist) evs init) :
    Bookkeeping (init.run ssBlacklist evs) := by
  have hinv := along_inv (handle ssBlacklist) (fun ev _ s (h : Inv [] s) hev => handle_inv ssBlacklist h hev) evs init
    inv_init hok
  exact hinv.bookkeeping

/-- an offer of two, of which one is refused in the end, and the other accepted and deleted -/
def offerAndDelete : List Event :=
  [.cap (capLine "LS" "multi-prefix sasl=PLAIN x") [.none, ⟨true, []⟩], .cap (capLine "NAK" "multi-prefix sasl") [],
    .cap (capLine "NAK" "multi-prefix") [], .cap (capLine "ACK" "sasl") [⟨false, [.PauseCap]⟩], .call .ResumeCap,
    .welcome, .cap (capLine "DEL" "sasl") []]

theorem cap_bookkeeping_offerAndDelete : Bookkeeping (init.run .empty offerAndDelete) :=
  cap_bookkeeping .empty offerAndDelete (by decide)

/-- the refusal of a batch, and the deletion of a member before its turn to be requested alone -/
def deletedInRetry : List Event :=
  [.cap (capLine "LS" "multi-prefix server-time") [], .cap (capLine "NAK" "multi-prefix server-time") [],
    .cap (capLine "DEL" "server-time") []]

/-- `server-time` is requested behind its deletion -/
theorem cap_requested_after_del : ¬Bookkeeping (init.run .empty deletedInRetry) := by
  have hlog : ((init.run .empty deletedInRetry).log).take 2 =
      [.retried (lit "server-time"), .heard (.deleted (lit "server-time"))] := by
    decide
  intro h
  have hsplit := take_append_drop 2 (init.run .empty deletedInRetry).log
  rw [hlog] at hsplit
  obtain ⟨x, hx, -⟩ := h.barred (lit "server-time") [] _ [] _ _ hsplit.symm (.inr rfl) (.inl rfl)
  cases hx

end ZNC.Cap
