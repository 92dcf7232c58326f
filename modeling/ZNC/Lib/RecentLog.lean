/-
A log of which the newest entries can be read, and at most as many as a bound says.

The log itself is unbounded. An entry is pushed at its end; an entry among the readable ones may be replaced where it stands; the
bound may change, and what a lower bound hides stays hidden when it grows again. The number of readable entries is kept with the
log and never exceeds its length or the bound.

Results:
- `length_recent`: as many entries are read as are kept;
- `recent_push`, `recent_limit`, `recent_forget`, `recent_replaceAt`: what each operation does to the readable entries.
-/
import Mathlib.Data.List.DropRight
import Mathlib.Tactic

/-- a log with its newest `kept` entries readable -/
@[ext] structure RecentLog (α : Type*) where
  log : List α
  kept : ℕ
  bound : ℕ
  kept_le_length : kept ≤ log.length
  kept_le_bound : kept ≤ bound

namespace RecentLog

variable {α : Type*}

/-- the readable entries, oldest first -/
def recent (r : RecentLog α) : List α := r.log.rtake r.kept

/-! ## Operations -/

def empty (bound : ℕ) : RecentLog α := ⟨[], 0, bound, le_rfl, Nat.zero_le _⟩

/-- a new entry; the oldest readable one makes room for it where there is none -/
def push (r : RecentLog α) (x : α) : RecentLog α where
  log := r.log ++ [x]
  kept := min (r.kept + 1) r.bound
  bound := r.bound
  kept_le_length := by
    have h := r.kept_le_length
    rw [List.length_append, List.length_singleton]
    omega
  kept_le_bound := Nat.min_le_right _ _

/-- another bound -/
def limit (r : RecentLog α) (n : ℕ) : RecentLog α where
  log := r.log
  kept := min r.kept n
  bound := n
  kept_le_length := (Nat.min_le_left _ _).trans r.kept_le_length
  kept_le_bound := Nat.min_le_right _ _

/-- nothing of what there is stays readable -/
def forget (r : RecentLog α) : RecentLog α := ⟨r.log, 0, r.bound, Nat.zero_le _, Nat.zero_le _⟩

/-- another entry in the place of one that can be read, counted from the oldest of these -/
def replaceAt (r : RecentLog α) (i : ℕ) (x : α) : RecentLog α where
  log := r.log.set (r.log.length - r.kept + i) x
  kept := r.kept
  bound := r.bound
  kept_le_length := by
    rw [List.length_set]
    exact r.kept_le_length
  kept_le_bound := r.kept_le_bound

/-- an entry in the place of the first readable one that `p` holds of, or a new one -/
def amend (r : RecentLog α) (p : α → Bool) (x : α) : RecentLog α :=
  match r.recent.findIdx? p with
  | some i => r.replaceAt i x
  | none => r.push x

/-- a new entry, unless `p` holds of a readable one -/
def pushUnless (r : RecentLog α) (p : α → Bool) (x : α) : RecentLog α := if r.recent.any p then r else r.push x

/-! ## What can be read -/

variable (r : RecentLog α)

@[simp] theorem length_recent : r.recent.length = r.kept := by
  have h := r.kept_le_length
  rw [recent, List.rtake, List.length_drop]
  omega

@[simp] theorem recent_empty (n : ℕ) : (empty n : RecentLog α).recent = [] := rfl

theorem recent_push (x : α) : (r.push x).recent = (r.recent ++ [x]).drop (r.kept + 1 - r.bound) := by
  have hlength := r.kept_le_length
  have hbound := r.kept_le_bound
  have happend : r.recent ++ [x] = (r.log ++ [x]).drop (r.log.length - r.kept) := by
    rw [List.drop_append_of_le_length (by omega)]
    rfl
  calc (r.push x).recent = (r.log ++ [x]).drop (r.log.length - r.kept + (r.kept + 1 - r.bound)) := by
        apply congrArg (List.drop · (r.log ++ [x]))
        simp only [push, List.length_append, List.length_singleton]
        omega
    _ = ((r.log ++ [x]).drop (r.log.length - r.kept)).drop (r.kept + 1 - r.bound) := by rw [List.drop_drop]
    _ = (r.recent ++ [x]).drop (r.kept + 1 - r.bound) := by rw [happend]

theorem recent_limit (n : ℕ) : (r.limit n).recent = r.recent.drop (r.kept - n) := by
  have hlength := r.kept_le_length
  calc (r.limit n).recent = r.log.drop (r.log.length - r.kept + (r.kept - n)) := by
        apply congrArg (List.drop · r.log)
        simp only [limit]
        omega
    _ = r.recent.drop (r.kept - n) := by rw [← List.drop_drop, recent, List.rtake]

@[simp] theorem recent_forget : r.forget.recent = [] := List.rtake_zero _

theorem recent_replaceAt (i : ℕ) (x : α) : (r.replaceAt i x).recent = r.recent.set i x := by
  have hset : (r.log.set (r.log.length - r.kept + i) x).length = r.log.length := List.length_set
  rw [recent, recent, List.rtake, List.rtake]
  simp only [replaceAt]
  rw [hset, List.drop_set, if_neg (by omega), Nat.add_sub_cancel_left]

end RecentLog
