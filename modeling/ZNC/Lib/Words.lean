/-
Cutting a text at a separator: at its first occurrence, and into words separated by runs of it.

`cut sep l` is `find(sep)` with the two `substr` calls around it; `word sep l` reads up to the next separator and skips
the whole run of separators there; `fields sep l` are all the words. Each comes with a lemma for a text that was put
together from its pieces and one that says what the pieces of any text are.
-/
import Mathlib.Data.List.TakeWhile
import Mathlib.Tactic

namespace Words

open List

variable {α : Type} [DecidableEq α]

/-! ## Up to a separator -/

variable {l w : List α}

theorem takeWhile_append_sep {sep : α} (hw : sep ∉ w) (r : List α) :
    (w ++ sep :: r).takeWhile (· ≠ sep) = w ∧ (w ++ sep :: r).dropWhile (· ≠ sep) = sep :: r := by
  induction w with
  | nil => simp
  | cons a w ih =>
    obtain ⟨ha, hw⟩ := not_or.1 (fun h => hw (mem_cons.2 h))
    obtain ⟨h1, h2⟩ := ih hw
    have hne : a ≠ sep := fun h => ha h.symm
    simp only [cons_append, takeWhile_cons, dropWhile_cons, ne_eq, hne, not_false_eq_true, decide_true, if_true]
    exact ⟨congrArg _ h1, h2⟩

theorem takeWhile_of_not_mem {sep : α} (hw : sep ∉ w) :
    w.takeWhile (· ≠ sep) = w ∧ w.dropWhile (· ≠ sep) = [] := by
  have hall : ∀ a ∈ w, decide (a ≠ sep) = true := by
    intro a ha
    exact decide_eq_true (fun h => hw (h ▸ ha))
  exact ⟨takeWhile_eq_self_iff.2 hall, dropWhile_eq_nil_iff.2 hall⟩

/-! ## The first occurrence -/

/-- what stands before and after the first `sep`, if there is one -/
def cut (sep : α) (l : List α) : Option (List α × List α) :=
  if sep ∈ l then some (l.takeWhile (· ≠ sep), (l.dropWhile (· ≠ sep)).drop 1) else none

theorem cut_append {sep : α} (hw : sep ∉ w) (r : List α) : cut sep (w ++ sep :: r) = some (w, r) := by
  obtain ⟨h1, h2⟩ := takeWhile_append_sep hw r
  rw [cut, if_pos (by simp), h1, h2]
  rfl

theorem cut_of_not_mem {sep : α} (h : sep ∉ l) : cut sep l = none := if_neg h

theorem cut_eq_none {sep : α} (h : cut sep l = none) : sep ∉ l := by
  unfold cut at h
  split_ifs at h with hmem
  exact hmem

theorem cut_eq_some {sep : α} {r : List α} (h : cut sep l = some (w, r)) : l = w ++ sep :: r ∧ sep ∉ w := by
  have hmem : sep ∈ l := by
    by_contra hn
    rw [cut_of_not_mem hn] at h
    exact absurd h (by simp)
  obtain ⟨w', r', rfl, hw'⟩ := eq_append_cons_of_mem hmem
  rw [cut_append hw', Option.some_inj, Prod.mk.injEq] at h
  obtain ⟨rfl, rfl⟩ := h
  exact ⟨rfl, hw'⟩

/-! ## Words -/

/-- the first word and what follows the run of separators behind it -/
def word (sep : α) (l : List α) : List α × List α :=
  (l.takeWhile (· ≠ sep), (l.dropWhile (· ≠ sep)).dropWhile (· = sep))

theorem word_append {sep : α} {r : List α} (hw : sep ∉ w) (hr : r.head? ≠ some sep) :
    word sep (w ++ sep :: r) = (w, r) := by
  obtain ⟨h1, h2⟩ := takeWhile_append_sep hw r
  rw [word, h1, h2]
  cases r with
  | nil => simp
  | cons a r =>
    have hne : a ≠ sep := fun h => hr (by rw [h]; rfl)
    simp [hne]

theorem word_of_not_mem {sep : α} (hw : sep ∉ w) : word sep w = (w, []) := by
  obtain ⟨h1, h2⟩ := takeWhile_of_not_mem hw
  rw [word, h1, h2]
  rfl

theorem length_word_lt (sep : α) (hl : l ≠ []) : (word sep l).2.length < l.length := by
  cases l with
  | nil => exact absurd rfl hl
  | cons a l =>
    have h1 : ∀ (p : α → Bool) (t : List α), (t.dropWhile p).length ≤ t.length := fun p t =>
      (dropWhile_suffix p).length_le
    have h2 : ∀ t : List α, (t.dropWhile (· = sep)).length ≤ t.length := fun t => h1 _ t
    rw [word, length_cons]
    by_cases ha : a = sep
    · simp only [dropWhile_cons, ha, ne_eq, not_true_eq_false, decide_false, Bool.false_eq_true, if_false,
        decide_true, if_true]
      exact Nat.lt_succ_of_le (h2 l)
    · simp only [dropWhile_cons, ha, ne_eq, not_false_eq_true, decide_true, if_true]
      exact Nat.lt_succ_of_le ((h2 _).trans (h1 _ l))

theorem length_word_le (sep : α) (l : List α) : (word sep l).1.length + (word sep l).2.length ≤ l.length := by
  have hcut : (l.takeWhile (· ≠ sep)).length + (l.dropWhile (· ≠ sep)).length = l.length := by
    rw [← length_append, takeWhile_append_dropWhile]
  have hrun := (dropWhile_suffix (l := l.dropWhile (· ≠ sep)) (· = sep)).length_le
  rw [word]
  simp only at hrun ⊢
  omega

theorem length_word_add_one_le {sep : α} (h : (word sep l).2 ≠ []) :
    (word sep l).1.length + (word sep l).2.length + 1 ≤ l.length := by
  have hcut : (l.takeWhile (· ≠ sep)).length + (l.dropWhile (· ≠ sep)).length = l.length := by
    rw [← length_append, takeWhile_append_dropWhile]
  rw [word] at h ⊢
  simp only at h ⊢
  cases hd : l.dropWhile (· ≠ sep) with
  | nil => rw [hd] at h; exact absurd rfl h
  | cons a r =>
    have ha : a = sep := by
      have := head_dropWhile_not (· ≠ sep) (by rw [hd]; exact cons_ne_nil a r)
      simp only [hd, head_cons] at this
      simpa using this
    have hrun := (dropWhile_suffix (l := r) (· = sep)).length_le
    rw [hd, length_cons] at hcut
    simp only [dropWhile_cons, ha, decide_true, if_true]
    omega

/-! ## Fields -/

/-- the words of a text, between runs of separators -/
def fields (sep : α) (l : List α) : List (List α) := (l.splitOn sep).filter (· ≠ [])

theorem fields_nil (sep : α) : fields sep ([] : List α) = [] := by simp [fields]

theorem fields_of_not_mem {sep : α} (hw : sep ∉ w) : fields sep w = if w = [] then [] else [w] := by
  rw [fields, splitOn_eq_singleton hw]
  split_ifs with hne
  · rw [hne]
    rfl
  · rw [filter_cons_of_pos (by simpa using hne), filter_nil]

theorem fields_append {sep : α} (hw : sep ∉ w) (r : List α) :
    fields sep (w ++ sep :: r) = (if w = [] then [] else [w]) ++ fields sep r := by
  rw [fields, splitOn_append_cons_self_of_not_mem hw]
  split_ifs with hne
  · rw [hne]
    rfl
  · rw [filter_cons_of_pos (by simpa using hne)]
    rfl

theorem fields_cons_sep (sep : α) (l : List α) : fields sep (sep :: l) = fields sep l :=
  fields_append (w := []) not_mem_nil l

theorem fields_dropWhile (sep : α) (l : List α) : fields sep (l.dropWhile (· = sep)) = fields sep l := by
  induction l with
  | nil => rfl
  | cons a l ih =>
    by_cases ha : a = sep
    · rw [dropWhile_cons_of_pos (by simpa using ha), ih, ha, fields_cons_sep]
    · rw [dropWhile_cons_of_neg (by simpa using ha)]

theorem fields_eq_word {sep : α} (hne : l ≠ []) (hhead : l.head? ≠ some sep) :
    fields sep l = (word sep l).1 :: fields sep (word sep l).2 := by
  have hw : sep ∉ l.takeWhile (· ≠ sep) := fun h => by simpa using mem_takeWhile_imp h
  have hnw : l.takeWhile (· ≠ sep) ≠ [] := by
    cases l with
    | nil => exact absurd rfl hne
    | cons a l =>
      have ha : a ≠ sep := fun h => hhead (by rw [h]; rfl)
      rw [takeWhile_cons_of_pos (by simpa using ha)]
      exact cons_ne_nil _ _
  have hcut : l.takeWhile (· ≠ sep) ++ l.dropWhile (· ≠ sep) = l := takeWhile_append_dropWhile
  rw [word, fields_dropWhile]
  cases hd : l.dropWhile (· ≠ sep) with
  | nil =>
    rw [hd, append_nil] at hcut
    have hwhole := fields_of_not_mem hw
    rw [if_neg hnw, hcut] at hwhole
    rw [fields_nil, hwhole]
    exact congrArg (fun w => [w]) hcut.symm
  | cons a r =>
    have ha : a = sep := by
      have := head_dropWhile_not (· ≠ sep) (by rw [hd]; exact cons_ne_nil a r)
      simp only [hd, head_cons] at this
      simpa using this
    have hwhole := fields_append hw r
    rw [hd, ha] at hcut
    rw [if_neg hnw, hcut, singleton_append] at hwhole
    rw [hwhole, ha, fields_cons_sep]

end Words
