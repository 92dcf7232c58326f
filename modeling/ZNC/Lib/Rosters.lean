/-
Rosters: lists that have exactly the things of some kind, each of them once, while the kinds of the things change.

A thing has a label; the roster of some labels has the things with such a label. When one thing gets a new label it stays where
it is, enters a list, or leaves one.

Results:
- `Roster.keep`, `Roster.enter`, `Roster.leave`: the lists after one label has changed.
-/
import Mathlib.Tactic

variable {α β : Type}

/-- the list has the things with a label of `P`, each of them once -/
structure Roster (label : α → β) (P : β → Prop) (xs : List α) : Prop where
  nodup : xs.Nodup
  mem : ∀ x, x ∈ xs ↔ P (label x)

namespace Roster

open Function

variable {label : α → β} {P : β → Prop} {xs ys : List α} {x : α} {b : β}

theorem not_of_nil (h : Roster label P []) (x : α) : ¬ P (label x) := fun hx => List.not_mem_nil ((h.mem x).2 hx)

theorem nil_of_not (hnone : ∀ x, ¬ P (label x)) : Roster label P [] :=
  ⟨List.nodup_nil, fun x => iff_of_false List.not_mem_nil (hnone x)⟩

variable [DecidableEq α]

/-- the thing is in the list with the new label exactly if it was with the old one -/
theorem keep (h : Roster label P xs) (hsame : P b ↔ P (label x)) : Roster (update label x b) P xs := by
  refine ⟨h.nodup, fun y => ?_⟩
  rw [h.mem]
  by_cases hy : y = x
  · rw [hy, update_self, hsame]
  · rw [update_of_ne hy]

theorem enter (h : Roster label P xs) (hout : ¬ P (label x)) (hin : P b) (hperm : ys.Perm (x :: xs)) :
    Roster (update label x b) P ys := by
  have hnew : x ∉ xs := mt (h.mem x).1 hout
  refine ⟨hperm.nodup_iff.2 (List.nodup_cons.2 ⟨hnew, h.nodup⟩), fun y => ?_⟩
  rw [hperm.mem_iff, List.mem_cons, h.mem]
  by_cases hy : y = x
  · rw [hy, update_self]
    exact iff_of_true (.inl rfl) hin
  · rw [update_of_ne hy, or_iff_right hy]

theorem leave (h : Roster label P xs) (hout : ¬ P b) (hperm : xs.Perm (x :: ys)) :
    Roster (update label x b) P ys := by
  have hboth := List.nodup_cons.1 (hperm.nodup_iff.1 h.nodup)
  refine ⟨hboth.2, fun y => ?_⟩
  by_cases hy : y = x
  · rw [hy, update_self]
    exact iff_of_false hboth.1 hout
  · rw [update_of_ne hy, ← h.mem, hperm.mem_iff, List.mem_cons, or_iff_right hy]

end Roster
