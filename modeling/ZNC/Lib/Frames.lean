/-
A text cut into frames of a fixed size, where a shorter frame ends the text.

The last frame is shorter than the others. If nothing is left for it, a mark stands in its place, which is itself no full
frame and not taken for the rest of a text.

Results:
- `reassemble_frames`: the frames put together again are the text, and the last of them ends it;
- `frames_eq`: all frames but the last are full.
-/
import Mathlib.Tactic

namespace Frames

open List

variable {α : Type}

/-- `k` full frames, and the rest of the text or the mark -/
def cut (n : ℕ) (mark : List α) : ℕ → List α → List (List α)
  | 0, l => [if l = [] then mark else l]
  | k + 1, l => l.take n :: cut n mark k (l.drop n)

/-- the first `k` frames of a text, which is long enough -/
def full (n : ℕ) : ℕ → List α → List (List α)
  | 0, _ => []
  | k + 1, l => l.take n :: full n k (l.drop n)

def frames (n : ℕ) (mark l : List α) : List (List α) := cut n mark (l.length / n) l

section Reassemble

variable [DecidableEq α]

/-- the text of some frames behind `buf`, if the last one ends it and no other does -/
def reassemble (n : ℕ) (mark buf : List α) : List (List α) → Option (List α)
  | [] => none
  | [p] => if p.length = n then none else some (if p = mark then buf else buf ++ p)
  | p :: ps => if p.length = n then reassemble n mark (buf ++ p) ps else none

theorem reassemble_cons {n : ℕ} {mark buf p : List α} {ps : List (List α)} (hp : p.length = n) (hps : ps ≠ []) :
    reassemble n mark buf (p :: ps) = reassemble n mark (buf ++ p) ps := by
  cases ps with
  | nil => exact absurd rfl hps
  | cons q ps =>
    rw [reassemble, if_pos hp]
    exact hps

end Reassemble

/-! ## Full frames -/

theorem cut_add (n : ℕ) (mark : List α) (k j : ℕ) (l : List α) :
    cut n mark (k + j) l = full n k l ++ cut n mark j (l.drop (k * n)) := by
  induction k generalizing l with
  | zero => rw [Nat.zero_add, Nat.zero_mul, drop_zero, full, nil_append]
  | succ k ih =>
    have hmul : (k + 1) * n = n + k * n := by ring
    rw [Nat.add_right_comm, cut, full, ih, hmul, drop_drop, cons_append]

theorem length_of_mem_full {n k : ℕ} {l p : List α} (hle : k * n ≤ l.length) (hp : p ∈ full n k l) : p.length = n := by
  induction k generalizing l with
  | zero => exact nomatch hp
  | succ k ih =>
    have hmul : (k + 1) * n = n + k * n := by ring
    rcases mem_cons.1 hp with rfl | hp
    · exact length_take_of_le (by omega)
    · refine ih ?_ hp
      rw [length_drop]
      omega

theorem flatten_full (n k : ℕ) (l : List α) : (full n k l).flatten = l.take (k * n) := by
  induction k generalizing l with
  | zero => rw [full, Nat.zero_mul, take_zero, flatten_nil]
  | succ k ih =>
    have hmul : (k + 1) * n = n + k * n := by ring
    rw [full, flatten_cons, ih, hmul, take_add]

theorem frames_eq (n : ℕ) (mark l : List α) :
    frames n mark l = full n (l.length / n) l ++
      [if l.drop (l.length / n * n) = [] then mark else l.drop (l.length / n * n)] := by
  rw [frames, ← Nat.add_zero (l.length / n), cut_add, Nat.add_zero, cut]

theorem reassemble_full [DecidableEq α] {n : ℕ} {mark last : List α} (hlast : last.length ≠ n)
    (ps : List (List α)) (buf : List α)
    (hps : ∀ p ∈ ps, p.length = n) :
    reassemble n mark buf (ps ++ [last]) =
      some (if last = mark then buf ++ ps.flatten else buf ++ ps.flatten ++ last) := by
  induction ps generalizing buf with
  | nil => rw [nil_append, reassemble, if_neg hlast, flatten_nil, append_nil]
  | cons p ps ih =>
    have hp := hps p mem_cons_self
    rw [cons_append, reassemble_cons hp (by simp), ih _ fun q hq => hps q (mem_cons_of_mem _ hq), flatten_cons,
      append_assoc]

theorem reassemble_none [DecidableEq α] {n : ℕ} (mark : List α) (ps : List (List α)) (buf : List α)
    (hps : ∀ p ∈ ps, p.length = n) : reassemble n mark buf ps = none := by
  induction ps generalizing buf with
  | nil => rfl
  | cons p ps ih =>
    have hp := hps p mem_cons_self
    cases ps with
    | nil => rw [reassemble, if_pos hp]
    | cons q qs => rw [reassemble_cons hp (by simp), ih _ fun q hq => hps q (mem_cons_of_mem _ hq)]

theorem reassemble_frames [DecidableEq α] {n : ℕ} (hn : 0 < n) {mark l : List α} (hmark : mark.length ≠ n)
    (hrest : l.length % n ≠ 0 → l.drop (l.length / n * n) ≠ mark) :
    reassemble n mark [] (frames n mark l) = some l := by
  have hdiv := Nat.div_add_mod' l.length n
  have hfull : ∀ p ∈ full n (l.length / n) l, p.length = n :=
    fun p hp => length_of_mem_full (Nat.div_mul_le_self _ _) hp
  have hlen : (l.drop (l.length / n * n)).length = l.length % n := by
    rw [length_drop]
    omega
  have hmod := Nat.mod_lt l.length hn
  rw [frames_eq]
  by_cases hnil : l.drop (l.length / n * n) = []
  · have hall : l.take (l.length / n * n) = l := by
      have happ := take_append_drop (l.length / n * n) l
      rwa [hnil, append_nil] at happ
    rw [if_pos hnil, reassemble_full hmark _ [] hfull, if_pos rfl, nil_append, flatten_full, hall]
  · have hne : (l.drop (l.length / n * n)).length ≠ n := by omega
    have hmod0 : l.length % n ≠ 0 := by
      rw [← hlen]
      exact fun h0 => hnil (eq_nil_of_length_eq_zero h0)
    rw [if_neg hnil, reassemble_full hne _ [] hfull, if_neg (hrest hmod0), nil_append, flatten_full, take_append_drop]

end Frames
