/-
Streaks of timed marks: how many of the newest marks follow each other without too long a pause.

A journal has its newest mark first, each with its time. The streak at a time `t` is the longest front of the journal in which
no pause is longer than `T`: from the newest mark to `t`, nor between one mark and the next.

Results:
- `streak_tight`, `front_streak`: the streak is a tight front, and the longest one;
- `enough_iff`: some tight front has at least `n` marks of a kind exactly if the streak has.
-/
import Mathlib.Tactic

namespace Streaks

variable {β : Type} (T : ℕ)

/-- no pause is longer than `T`, up to the time `t` -/
def Tight : ℕ → List (ℕ × β) → Prop
  | _, [] => True
  | t, (s, _) :: marks => t ≤ s + T ∧ Tight s marks

instance Tight.decidable : (t : ℕ) → (marks : List (ℕ × β)) → Decidable (Tight T t marks)
  | _, [] => isTrue trivial
  | t, (s, _) :: marks =>
    have : Decidable (Tight T s marks) := Tight.decidable s marks
    inferInstanceAs (Decidable (t ≤ s + T ∧ Tight T s marks))

/-- the marks up to the first pause that is too long -/
def streak : ℕ → List (ℕ × β) → List (ℕ × β)
  | _, [] => []
  | t, (s, b) :: marks => if t ≤ s + T then (s, b) :: streak s marks else []

variable {T}

theorem streak_tight (t : ℕ) (marks : List (ℕ × β)) : Tight T t (streak T t marks) := by
  induction marks generalizing t with
  | nil => trivial
  | cons m marks ih =>
    rw [streak]
    split_ifs with h
    · exact ⟨h, ih m.1⟩
    · trivial

theorem streak_front (t : ℕ) (marks : List (ℕ × β)) : streak T t marks <+: marks := by
  induction marks generalizing t with
  | nil => exact List.prefix_rfl
  | cons m marks ih =>
    rw [streak]
    split_ifs with h
    · exact (List.prefix_cons_inj m).2 (ih m.1)
    · exact List.nil_prefix

theorem front_streak {t : ℕ} {recent marks : List (ℕ × β)} (h : recent <+: marks) (htight : Tight T t recent) :
    recent <+: streak T t marks := by
  induction recent generalizing t marks with
  | nil => exact List.nil_prefix
  | cons m recent ih =>
    obtain ⟨older, rfl⟩ := h
    rw [List.cons_append, streak, if_pos htight.1]
    exact (List.prefix_cons_inj m).2 (ih (List.prefix_append recent older) htight.2)

theorem enough_iff (p : ℕ × β → Bool) (n t : ℕ) (marks : List (ℕ × β)) :
    (∃ recent older, marks = recent ++ older ∧ Tight T t recent ∧ n ≤ recent.countP p) ↔
      n ≤ (streak T t marks).countP p := by
  constructor
  · rintro ⟨recent, older, rfl, htight, hn⟩
    exact hn.trans ((front_streak (List.prefix_append recent older) htight).sublist.countP_le)
  · intro hn
    obtain ⟨older, holder⟩ := streak_front (T := T) t marks
    exact ⟨_, older, holder.symm, streak_tight t marks, hn⟩

end Streaks
