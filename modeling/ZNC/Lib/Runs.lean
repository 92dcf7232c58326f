/-
Runs of a machine that takes one step for each event: what holds in every state, and of every step with the state before it.

Results:
- `states_iff`, `steps_iff`: both are statements about every splitting of the events;
- `states_of_inv`: an invariant of the steps holds in every state;
- `forall_modify`: what holds of every entry of a list when one of them is changed;
- `keeps_iff`: where each step keeps an invariant exactly if it meets a condition, the runs in which every state is good are
  those in which every step meets the condition; `steps_exact_iff`: the same where nothing is asked of the states.
-/
import Mathlib.Tactic

namespace Runs

variable {σ ε : Type} (step : σ → ε → σ)

/-- `P` holds of every state of the run -/
def States (P : σ → Prop) : List ε → σ → Prop
  | [], s => P s
  | ev :: evs, s => P s ∧ States P evs (step s ev)

/-- `P` holds of every step of the run, and of the state before it -/
def Steps (P : σ → ε → Prop) : List ε → σ → Prop
  | [], _ => True
  | ev :: evs, s => P s ev ∧ Steps P evs (step s ev)

instance States.decidable (P : σ → Prop) [DecidablePred P] : (evs : List ε) → (s : σ) → Decidable (States step P evs s)
  | [], s => inferInstanceAs (Decidable (P s))
  | ev :: evs, s =>
    have : Decidable (States step P evs (step s ev)) := States.decidable P evs (step s ev)
    inferInstanceAs (Decidable (P s ∧ States step P evs (step s ev)))

instance Steps.decidable (P : σ → ε → Prop) [∀ s ev, Decidable (P s ev)] :
    (evs : List ε) → (s : σ) → Decidable (Steps step P evs s)
  | [], _ => isTrue trivial
  | ev :: evs, s =>
    have : Decidable (Steps step P evs (step s ev)) := Steps.decidable P evs (step s ev)
    inferInstanceAs (Decidable (P s ev ∧ Steps step P evs (step s ev)))

variable {step}

variable {Inv : σ → Prop} {evs : List ε}

theorem States.start {P : σ → Prop} {s : σ} (h : States step P evs s) : P s := by
  cases evs with
  | nil => exact h
  | cons ev evs => exact h.1

theorem states_iff {P : σ → Prop} {s : σ} :
    States step P evs s ↔ ∀ before later, evs = before ++ later → P (before.foldl step s) := by
  induction evs generalizing s with
  | nil =>
    constructor
    · intro h before later hsplit
      obtain ⟨rfl, -⟩ := List.append_eq_nil_iff.1 hsplit.symm
      exact h
    · exact fun h => h [] [] rfl
  | cons ev evs ih =>
    rw [States, ih]
    constructor
    · rintro ⟨hs, hrest⟩ before later hsplit
      cases before with
      | nil => exact hs
      | cons e before =>
        obtain ⟨rfl, hevs⟩ := List.cons.inj hsplit
        exact hrest before later hevs
    · intro h
      refine ⟨h [] (ev :: evs) rfl, fun before later hsplit => ?_⟩
      exact h (ev :: before) later (by rw [hsplit, List.cons_append])

theorem steps_iff {P : σ → ε → Prop} {s : σ} :
    Steps step P evs s ↔ ∀ before ev later, evs = before ++ ev :: later → P (before.foldl step s) ev := by
  induction evs generalizing s with
  | nil => exact iff_of_true trivial fun before ev later hsplit => by simp at hsplit
  | cons ev evs ih =>
    rw [Steps, ih]
    constructor
    · rintro ⟨hs, hrest⟩ before e later hsplit
      rcases List.cons_eq_append_iff.1 hsplit with ⟨rfl, he⟩ | ⟨before, rfl, hevs⟩
      · obtain ⟨rfl, -⟩ := List.cons.inj he
        exact hs
      · exact hrest before e later hevs
    · intro h
      refine ⟨h [] ev evs rfl, fun before e later hsplit => ?_⟩
      exact h (ev :: before) e later (by rw [hsplit, List.cons_append])

theorem steps_append {P : σ → ε → Prop} (past todo : List ε) (s : σ) :
    Steps step P (past ++ todo) s ↔ Steps step P past s ∧ Steps step P todo (past.foldl step s) := by
  induction past generalizing s with
  | nil => exact ⟨fun h => ⟨trivial, h⟩, fun h => h.2⟩
  | cons ev past ih => rw [List.cons_append, Steps, Steps, ih, and_assoc, List.foldl_cons]

theorem steps_and {P Q : σ → ε → Prop} {s : σ} :
    Steps step (fun s ev => P s ev ∧ Q s ev) evs s ↔ Steps step P evs s ∧ Steps step Q evs s := by
  induction evs generalizing s with
  | nil => exact ⟨fun _ => ⟨trivial, trivial⟩, fun _ => trivial⟩
  | cons ev evs ih =>
    rw [Steps, Steps, Steps, ih]
    exact and_and_and_comm

theorem States.imp {P Q : σ → Prop} (himp : ∀ s, P s → Q s) {s : σ} (h : States step P evs s) :
    States step Q evs s :=
  states_iff.2 fun before later hsplit => himp _ (states_iff.1 h before later hsplit)

theorem states_of_inv {Ok : σ → ε → Prop} (hstep : ∀ s ev, Inv s → Ok s ev → Inv (step s ev)) (evs : List ε) {s : σ}
    (h : Inv s) (hok : Steps step Ok evs s) : States step Inv evs s := by
  induction evs generalizing s with
  | nil => exact h
  | cons ev evs ih => exact ⟨h, ih (hstep s ev h hok.1) hok.2⟩

theorem steps_of_inv {Meets Ok : σ → ε → Prop} (hstep : ∀ s ev, Inv s → Meets s ev → Inv (step s ev))
    (hok : ∀ s ev, Inv s → Meets s ev → Ok s ev) (evs : List ε) {s : σ} (h : Inv s) (hmeets : Steps step Meets evs s) :
    Steps step Ok evs s := by
  induction evs generalizing s with
  | nil => trivial
  | cons ev evs ih => exact ⟨hok s ev h hmeets.1, ih (hstep s ev h hmeets.1) hmeets.2⟩

theorem keeps_iff {Good : σ → Prop} {Legal Ok Meets : σ → ε → Prop} (hgood : ∀ s, Inv s → Good s)
    (hto : ∀ s ev, Inv s → Legal s ev → Meets s ev → Inv (step s ev) ∧ Ok s ev)
    (hfrom : ∀ s ev, Inv s → Legal s ev → Good (step s ev) → Ok s ev → Meets s ev) (evs : List ε) {s : σ} (h : Inv s)
    (hlegal : Steps step Legal evs s) : (States step Good evs s ∧ Steps step Ok evs s) ↔ Steps step Meets evs s := by
  induction evs generalizing s with
  | nil => exact iff_of_true ⟨hgood s h, trivial⟩ trivial
  | cons ev evs ih =>
    rw [States, Steps, Steps]
    constructor
    · rintro ⟨⟨-, hstates⟩, hok, hsteps⟩
      have hmeets := hfrom s ev h hlegal.1 hstates.start hok
      exact ⟨hmeets, (ih (hto s ev h hlegal.1 hmeets).1 hlegal.2).1 ⟨hstates, hsteps⟩⟩
    · rintro ⟨hmeets, hrest⟩
      obtain ⟨hinv, hok⟩ := hto s ev h hlegal.1 hmeets
      obtain ⟨hstates, hsteps⟩ := (ih hinv hlegal.2).2 hrest
      exact ⟨⟨hgood s h, hstates⟩, hok, hsteps⟩

theorem steps_exact_iff {Legal Ok Meets : σ → ε → Prop}
    (hto : ∀ s ev, Inv s → Legal s ev → Meets s ev → Inv (step s ev) ∧ Ok s ev)
    (hfrom : ∀ s ev, Inv s → Legal s ev → Ok s ev → Meets s ev) (evs : List ε) {s : σ} (h : Inv s)
    (hlegal : Steps step Legal evs s) : Steps step Ok evs s ↔ Steps step Meets evs s := by
  have hstates : States step (fun _ => True) evs s := states_iff.2 fun _ _ _ => trivial
  exact (and_iff_right hstates).symm.trans
    (keeps_iff (fun _ _ => trivial) hto (fun s ev hi hl _ => hfrom s ev hi hl) evs h hlegal)

theorem forall_modify {α : Type} {p : α → Prop} {f : α → α} (hf : ∀ x, p x → p (f x)) {xs : List α} (i : ℕ)
    (h : ∀ x ∈ xs, p x) : ∀ x ∈ xs.modify i f, p x := by
  induction xs generalizing i with
  | nil => simp
  | cons x xs ih =>
    obtain ⟨hx, hxs⟩ := List.forall_mem_cons.1 h
    cases i with
    | zero => exact List.forall_mem_cons.2 ⟨hf x hx, hxs⟩
    | succ i => exact List.forall_mem_cons.2 ⟨hx, ih i hxs⟩

end Runs
