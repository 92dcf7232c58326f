/-
Journals: what holds at each event of a growing list of events, and of the events since another one.

A journal has its newest event first, so a suffix of it is the journal as it was. `Always` says something about every
event and the journal before it; `Clear` and `Latest` are one-pass monitors of what happened last. Each comes with the
statement over splittings of the journal that it decides. `Along` says something about every step of a run and the steps
still to do.

Results:
- `always_iff`: `Always` is the statement about every event in its place;
- `clear_iff`, `always_clear_iff`, `latest_iff`: what the two monitors say about the events of the journal;
- `along_inv`: an invariant of states and steps still to do holds at the end of a run whose steps keep it.
-/
import Mathlib.Tactic

namespace Journal

open List

variable {α : Type}

/-! ## Events in their place -/

/-- `P` holds of every event and the journal before it -/
def Always (P : α → List α → Prop) : List α → Prop
  | [] => True
  | e :: log => P e log ∧ Always P log

variable {log : List α}

theorem always_iff {P : α → List α → Prop} :
    Always P log ↔ ∀ pre e post, log = pre ++ e :: post → P e post := by
  induction log with
  | nil => simp [Always]
  | cons e log ih =>
    rw [Always, ih]
    constructor
    · intro h pre x post hsplit
      obtain ⟨he, h⟩ := h
      rcases cons_eq_append_iff.1 hsplit with ⟨rfl, hx⟩ | ⟨pre', rfl, hlog⟩
      · obtain ⟨rfl, rfl⟩ := List.cons.inj hx
        exact he
      · exact h pre' x post hlog
    · intro h
      refine ⟨h [] e log rfl, fun pre x post hsplit => ?_⟩
      apply h (e :: pre)
      rw [hsplit, cons_append]

theorem Always.append {P : α → List α → Prop} {new : List α} (h : ∀ e ∈ new, ∀ earlier, P e earlier)
    (hlog : Always P log) : Always P (new ++ log) := by
  induction new with
  | nil => exact hlog
  | cons e new ih => exact ⟨h e mem_cons_self _, ih fun x hx => h x (mem_cons_of_mem _ hx)⟩

/-! ## Since another event -/

/-- no `bad` event since the last `reset` -/
def Clear (reset bad : α → Prop) : List α → Prop
  | [] => True
  | e :: log => reset e ∨ (¬bad e ∧ Clear reset bad log)

instance Clear.decidable (reset bad : α → Prop) [DecidablePred reset] [DecidablePred bad] :
    (log : List α) → Decidable (Clear reset bad log)
  | [] => isTrue trivial
  | e :: log =>
    have : Decidable (Clear reset bad log) := Clear.decidable reset bad log
    inferInstanceAs (Decidable (reset e ∨ (¬bad e ∧ Clear reset bad log)))

theorem Clear.reset {reset bad : α → Prop} {e : α} (h : reset e) (log : List α) : Clear reset bad (e :: log) := .inl h

theorem Clear.step {reset bad : α → Prop} {e : α} (h : ¬bad e) (hlog : Clear reset bad log) :
    Clear reset bad (e :: log) := .inr ⟨h, hlog⟩

theorem clear_iff {reset bad : α → Prop} (hdisj : ∀ e, bad e → ¬reset e) :
    Clear reset bad log ↔ ∀ pre e post, log = pre ++ e :: post → bad e → ∃ x ∈ pre, reset x := by
  induction log with
  | nil => simp [Clear]
  | cons e log ih =>
    rw [Clear, ih]
    constructor
    · intro h pre x post hsplit hx
      rcases cons_eq_append_iff.1 hsplit with ⟨rfl, hxe⟩ | ⟨pre', rfl, hlog⟩
      · obtain ⟨rfl, rfl⟩ := List.cons.inj hxe
        rcases h with h | h
        · exact absurd h (hdisj x hx)
        · exact absurd hx h.1
      · rcases h with h | h
        · exact ⟨e, mem_cons_self, h⟩
        · obtain ⟨y, hy, hreset⟩ := h.2 pre' x post hlog hx
          exact ⟨y, mem_cons_of_mem _ hy, hreset⟩
    · intro h
      by_cases hr : reset e
      · exact .inl hr
      · refine .inr ⟨fun hb => ?_, fun pre x post hsplit hx => ?_⟩
        · obtain ⟨y, hy, -⟩ := h [] e log rfl hb
          cases hy
        · obtain ⟨y, hy, hreset⟩ := h (e :: pre) x post (by rw [hsplit, cons_append]) hx
          rcases mem_cons.1 hy with rfl | hy
          · exact absurd hreset hr
          · exact ⟨y, hy, hreset⟩

theorem Clear.append {reset bad : α → Prop} {new : List α} (h : ∀ e ∈ new, ¬bad e)
    (hlog : Clear reset bad log) : Clear reset bad (new ++ log) := by
  induction new with
  | nil => exact hlog
  | cons e new ih =>
    exact Clear.step (h e mem_cons_self) (ih fun x hx => h x (mem_cons_of_mem _ hx))

/-- **Between two events.** Every `use` happens with no `bad` event since the last `reset` exactly if a `reset` stands
between each `bad` event and each later `use`. -/
theorem always_clear_iff {use reset bad : α → Prop} (hdisj : ∀ e, bad e → ¬reset e) :
    Always (fun e earlier => use e → Clear reset bad earlier) log ↔
      ∀ later e mid e' earlier, log = later ++ e :: (mid ++ e' :: earlier) → use e → bad e' → ∃ x ∈ mid, reset x := by
  rw [always_iff]
  constructor
  · intro h later e mid e' earlier hsplit huse hbad
    exact (clear_iff hdisj).1 (h later e _ hsplit huse) mid e' earlier rfl hbad
  · intro h later e earlier hsplit huse
    refine (clear_iff hdisj).2 fun mid e' rest hrest hbad => ?_
    rw [hrest] at hsplit
    exact h later e mid e' rest hsplit huse hbad

/-- the last event that is `good` or `bad` is `good` -/
def Latest (good bad : α → Prop) : List α → Prop
  | [] => False
  | e :: log => good e ∨ (¬bad e ∧ Latest good bad log)

instance Latest.decidable (good bad : α → Prop) [DecidablePred good] [DecidablePred bad] :
    (log : List α) → Decidable (Latest good bad log)
  | [] => isFalse id
  | e :: log =>
    have : Decidable (Latest good bad log) := Latest.decidable good bad log
    inferInstanceAs (Decidable (good e ∨ (¬bad e ∧ Latest good bad log)))

theorem Latest.step {good bad : α → Prop} {e : α} (h : ¬bad e) (hlog : Latest good bad log) :
    Latest good bad (e :: log) := .inr ⟨h, hlog⟩

theorem Latest.append {good bad : α → Prop} {new : List α} (h : ∀ e ∈ new, ¬bad e)
    (hlog : Latest good bad log) : Latest good bad (new ++ log) := by
  induction new with
  | nil => exact hlog
  | cons e new ih =>
    exact Latest.step (h e mem_cons_self) (ih fun x hx => h x (mem_cons_of_mem _ hx))

theorem Latest.of_mem {good bad : α → Prop} {new : List α} (h : ∀ e ∈ new, ¬bad e) {e : α}
    (he : e ∈ new) (hgood : good e)
    (log : List α) : Latest good bad (new ++ log) := by
  induction new with
  | nil => cases he
  | cons x new ih =>
    rcases mem_cons.1 he with rfl | he
    · exact .inl hgood
    · exact Latest.step (h x mem_cons_self) (ih (fun y hy => h y (mem_cons_of_mem _ hy)) he)

theorem latest_iff {good bad : α → Prop} :
    Latest good bad log ↔ ∃ pre e post, log = pre ++ e :: post ∧ good e ∧ ∀ x ∈ pre, ¬bad x := by
  induction log with
  | nil => simp [Latest]
  | cons e log ih =>
    rw [Latest, ih]
    constructor
    · intro h
      rcases h with h | ⟨hb, pre, x, post, hsplit, hx, hpre⟩
      · exact ⟨[], e, log, rfl, h, fun x hx => nomatch hx⟩
      · refine ⟨e :: pre, x, post, by rw [hsplit, cons_append], hx, fun y hy => ?_⟩
        rcases mem_cons.1 hy with rfl | hy
        · exact hb
        · exact hpre y hy
    · intro h
      obtain ⟨pre, x, post, hsplit, hx, hpre⟩ := h
      rcases cons_eq_append_iff.1 hsplit with ⟨rfl, hxe⟩ | ⟨pre', rfl, hlog⟩
      · obtain ⟨rfl, rfl⟩ := List.cons.inj hxe
        exact .inl hx
      · exact .inr ⟨hpre e mem_cons_self, pre', x, post, hlog, hx,
          fun y hy => hpre y (mem_cons_of_mem _ hy)⟩

/-! ## Runs -/

section Along

variable {σ ο : Type} (exec : σ → ο → σ)

/-- `Ok` holds of every step of a run: of the steps behind it, the state before it, and itself -/
def Along (Ok : List ο → σ → ο → Prop) : List ο → σ → Prop
  | [], _ => True
  | op :: todo, s => Ok todo s op ∧ Along Ok todo (exec s op)

instance Along.decidable (Ok : List ο → σ → ο → Prop) [∀ todo s op, Decidable (Ok todo s op)] :
    (ops : List ο) → (s : σ) → Decidable (Along exec Ok ops s)
  | [], _ => isTrue trivial
  | op :: todo, s =>
    have : Decidable (Along exec Ok todo (exec s op)) := Along.decidable Ok todo (exec s op)
    inferInstanceAs (Decidable (Ok todo s op ∧ Along exec Ok todo (exec s op)))

theorem along_append {Ok : List ο → σ → ο → Prop} (past todo : List ο) (s : σ) :
    Along exec Ok (past ++ todo) s ↔
      Along exec (fun ops => Ok (ops ++ todo)) past s ∧ Along exec Ok todo (past.foldl exec s) := by
  induction past generalizing s with
  | nil => simp [Along]
  | cons op past ih => simp only [cons_append, Along, ih, foldl_cons, and_assoc]

theorem along_congr {Ok Ok' : List ο → σ → ο → Prop} (Inv : σ → Prop) (hstep : ∀ s op, Inv s → Inv (exec s op))
    (hok : ∀ todo s op, Inv s → (Ok todo s op ↔ Ok' todo s op)) (ops : List ο) (s : σ) (h : Inv s) :
    Along exec Ok ops s ↔ Along exec Ok' ops s := by
  induction ops generalizing s with
  | nil => exact Iff.rfl
  | cons op todo ih => rw [Along, Along, hok todo s op h, ih (exec s op) (hstep s op h)]

theorem along_congr_of (exec : σ → ο → σ) {Hyp Ok Ok' : List ο → σ → ο → Prop}
    (hok : ∀ todo s op, Hyp todo s op → (Ok todo s op ↔ Ok' todo s op)) (ops : List ο) (s : σ)
    (h : Along exec Hyp ops s) : Along exec Ok ops s ↔ Along exec Ok' ops s := by
  induction ops generalizing s with
  | nil => exact Iff.rfl
  | cons op todo ih => rw [Along, Along, hok todo s op h.1, ih (exec s op) h.2]

theorem along_inv {Inv : List ο → σ → Prop} {Ok : List ο → σ → ο → Prop}
    (hstep : ∀ op todo s, Inv (op :: todo) s → Ok todo s op → Inv todo (exec s op)) (ops : List ο) (s : σ)
    (h : Inv ops s) (hok : Along exec Ok ops s) : Inv [] (ops.foldl exec s) := by
  induction ops generalizing s with
  | nil => exact h
  | cons op todo ih => exact ih (exec s op) (hstep op todo s h hok.1) hok.2

end Along

end Journal
