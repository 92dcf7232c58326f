/-
Sequences of writes of which the last one counts: settings that are given several times.

`lastWrite p ws` is the value of the last write of `ws` whose key satisfies `p`.

Results:
- `get_foldl`: what a run of writes leaves in a place that those with `p` set and the others leave alone;
- `lastWrite_eq_none_iff`, `exists_of_lastWrite`: the last write that counts is one of the writes.
-/
import Mathlib.Tactic

namespace LastWrite

open Option

variable {κ β : Type}

/-- the value of the last write to a key of `p` -/
def lastWrite (p : κ → Bool) : List (κ × β) → Option β
  | [] => none
  | w :: ws => (lastWrite p ws).or (if p w.1 then some w.2 else none)

theorem lastWrite_cons (p : κ → Bool) (w : κ × β) (ws : List (κ × β)) :
    lastWrite p (w :: ws) = (lastWrite p ws).or (if p w.1 then some w.2 else none) := rfl

theorem lastWrite_eq_none_iff {p : κ → Bool} {ws : List (κ × β)} : lastWrite p ws = none ↔ ∀ w ∈ ws, p w.1 = false := by
  induction ws with
  | nil => simp [lastWrite]
  | cons w ws ih => rw [lastWrite_cons, or_eq_none_iff, ih]; simp [and_comm]

theorem exists_of_lastWrite [DecidableEq κ] {p : κ → Bool} {ws : List (κ × β)} {b : β} (h : lastWrite p ws = some b) :
    ∃ k, p k = true ∧ lastWrite (fun k' => decide (k' = k)) ws = some b := by
  induction ws with
  | nil => cases h
  | cons w ws ih =>
    rw [lastWrite_cons] at h
    rcases hws : lastWrite p ws with _ | b'
    · rw [hws, none_or, ite_none_right_eq_some] at h
      obtain ⟨hw, hb⟩ := h
      refine ⟨w.1, hw, ?_⟩
      have hrest : lastWrite (fun k' => decide (k' = w.1)) ws = none := by
        rw [lastWrite_eq_none_iff] at hws ⊢
        intro w' hw'
        refine decide_eq_false fun heq => ?_
        rw [← heq, hws w' hw'] at hw
        cases hw
      rw [lastWrite_cons, hrest, none_or, if_pos (decide_eq_true rfl), hb]
    · rw [hws, some_or] at h
      obtain ⟨k, hk, hlast⟩ := ih (hws.trans h)
      exact ⟨k, hk, by rw [lastWrite_cons, hlast, some_or]⟩

theorem mem_of_lastWrite {p : κ → Bool} {ws : List (κ × β)} {b : β} (h : lastWrite p ws = some b) :
    ∃ w ∈ ws, p w.1 = true ∧ w.2 = b := by
  induction ws with
  | nil => cases h
  | cons w ws ih =>
    rw [lastWrite_cons, or_eq_some_iff] at h
    rcases h with h | ⟨-, h⟩
    · obtain ⟨w', hmem, hw'⟩ := ih h
      exact ⟨w', List.mem_cons_of_mem w hmem, hw'⟩
    · obtain ⟨hw, hb⟩ := ite_none_right_eq_some.1 h
      exact ⟨w, List.mem_cons_self, hw, some.inj hb⟩

/-- **The last write counts.** -/
theorem get_foldl {σ : Type} {step : σ → κ × β → σ} {get : σ → β} {p : κ → Bool}
    (hstep : ∀ s w, get (step s w) = if p w.1 then w.2 else get s) (ws : List (κ × β)) (s : σ) :
    get (ws.foldl step s) = (lastWrite p ws).getD (get s) := by
  induction ws generalizing s with
  | nil => rfl
  | cons w ws ih =>
    rw [List.foldl_cons, ih, lastWrite_cons, hstep]
    cases lastWrite p ws with
    | some b => rfl
    | none => cases p w.1 <;> rfl

end LastWrite
