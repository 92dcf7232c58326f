/-
Lines of a text, as a reader gets them that reads up to a terminator, and at the end what is left.

Results:
- `lines_append`: a line in front of a text;
- `mem_lines`: a line has no terminator but its last entry;
- `lines_eq_cons`, `lines_tail`: what is behind the first line, and behind the first entry of one.
-/
import Mathlib.Tactic

namespace Lines

open List

variable {α : Type} [DecidableEq α]

/-- the lines with their terminators; `l` is the line being read -/
def readLines (sep : α) (l : List α) : List α → List (List α)
  | [] => if l = [] then [] else [l]
  | a :: text => if a = sep then (l ++ [a]) :: readLines sep [] text else readLines sep (l ++ [a]) text

def lines (sep : α) (text : List α) : List (List α) := readLines sep [] text

@[simp] theorem lines_nil (sep : α) : lines sep [] = [] := rfl

theorem lines_append {sep : α} {w : List α} (hw : sep ∉ w) (text : List α) :
    lines sep (w ++ sep :: text) = (w ++ [sep]) :: lines sep text := by
  have hread (w : List α) (hw : sep ∉ w) (l : List α) :
      readLines sep l (w ++ sep :: text) = (l ++ w ++ [sep]) :: lines sep text := by
    induction w generalizing l with
    | nil => rw [nil_append, readLines, if_pos rfl, append_nil, lines]
    | cons a w ih =>
      obtain ⟨ha, hw⟩ := not_or.1 fun h => hw (mem_cons.2 h)
      rw [cons_append, readLines, if_neg fun h => ha h.symm, ih hw, append_assoc l, singleton_append]
  exact hread w hw []

theorem mem_lines {sep : α} {text l : List α} (hl : l ∈ lines sep text) :
    (∃ w, sep ∉ w ∧ (l = w ++ [sep] ∨ l = w)) ∧ l ⊆ text := by
  have hread (text l' : List α) (h' : sep ∉ l') (hl : l ∈ readLines sep l' text) :
      (∃ w, sep ∉ w ∧ (l = w ++ [sep] ∨ l = w)) ∧ l ⊆ l' ++ text := by
    induction text generalizing l' with
    | nil =>
      rw [readLines] at hl
      split at hl
      · exact nomatch hl
      · rw [mem_singleton.1 hl]
        exact ⟨⟨l', h', .inr rfl⟩, subset_append_left _ _⟩
    | cons a text ih =>
      rw [readLines] at hl
      split at hl
      · rename_i ha
        rcases mem_cons.1 hl with rfl | hl
        · refine ⟨⟨l', h', .inl (by rw [ha])⟩, ?_⟩
          intro b hb
          rcases mem_append.1 hb with hb | hb
          · exact mem_append_left _ hb
          · exact mem_append_right _ (mem_cons.2 (.inl (mem_singleton.1 hb)))
        · obtain ⟨hform, hsub⟩ := ih [] not_mem_nil hl
          exact ⟨hform, fun b hb => mem_append_right _ (mem_cons_of_mem _ (hsub hb))⟩
      · rename_i ha
        obtain ⟨hform, hsub⟩ := ih (l' ++ [a]) (by simpa [h', eq_comm] using ha) hl
        refine ⟨hform, ?_⟩
        rwa [append_assoc, singleton_append] at hsub
  exact hread text [] not_mem_nil hl

theorem lines_cons (sep a : α) (text : List α) :
    lines sep (a :: text) =
      if a = sep then [a] :: lines sep text
      else if text = [] then [[a]] else (lines sep text).modifyHead (a :: ·) := by
  have hread (text : List α) (h : text ≠ []) (l : List α) :
      readLines sep l text = (lines sep text).modifyHead (l ++ ·) := by
    induction text generalizing l with
    | nil => exact absurd rfl h
    | cons b text ih =>
      rw [lines, readLines, readLines]
      split
      · rfl
      · cases text with
        | nil => simp [readLines]
        | cons c text =>
          rw [ih (cons_ne_nil c text), ih (cons_ne_nil c text), modifyHead_modifyHead]
          simp [Function.comp_def]
  rw [lines, readLines]
  split
  · rfl
  · split
    next h => rw [h, readLines, if_neg (by simp), nil_append]
    next h => exact hread text h [a]

@[simp] theorem lines_eq_nil {sep : α} {text : List α} : lines sep text = [] ↔ text = [] := by
  refine ⟨fun h => ?_, fun h => by rw [h, lines_nil]⟩
  induction text with
  | nil => rfl
  | cons a text ih =>
    rw [lines_cons] at h
    split at h
    · cases h
    · split at h
      · cases h
      next hne => exact absurd (ih (by simpa using h)) hne

theorem lines_eq_cons {sep : α} {text l : List α} {ls : List (List α)} (h : lines sep text = l :: ls) :
    l ≠ [] ∧ ∃ rest, text = l ++ rest ∧ lines sep rest = ls := by
  induction text generalizing l with
  | nil => cases h
  | cons a text ih =>
    rw [lines_cons] at h
    split at h
    · cases h
      exact ⟨cons_ne_nil _ _, text, rfl, rfl⟩
    · split at h
      next htext =>
        cases h
        exact ⟨cons_ne_nil _ _, [], by rw [htext]; rfl, rfl⟩
      next =>
        cases hlines : lines sep text with
        | nil => rw [hlines] at h; cases h
        | cons l' ls' =>
          rw [hlines] at h
          cases h
          obtain ⟨-, rest, htext, hrest⟩ := ih hlines
          exact ⟨cons_ne_nil _ _, rest, by rw [htext]; rfl, hrest⟩

theorem lines_tail {sep a : α} {l rest : List α} (h : lines sep (a :: (l ++ rest)) = (a :: l) :: lines sep rest)
    (hl : l ≠ []) : lines sep (l ++ rest) = l :: lines sep rest := by
  rw [lines_cons] at h
  split at h
  · exact absurd (List.cons.inj (List.cons.inj h).1).2.symm hl
  · rw [if_neg fun h => hl (append_eq_nil_iff.1 h).1] at h
    cases hlines : lines sep (l ++ rest) with
    | nil => rw [hlines] at h; cases h
    | cons l' ls =>
      rw [hlines] at h
      obtain ⟨hhead, htail⟩ := List.cons.inj h
      rw [(List.cons.inj hhead).2, htail]

theorem lines_last {sep a : α} {l rest : List α}
    (h : lines sep (l ++ a :: rest) = (l ++ [a]) :: lines sep rest) (ha : a ≠ sep) : rest = [] := by
  induction l with
  | nil =>
    rw [nil_append, nil_append, lines_cons, if_neg ha] at h
    by_contra hrest
    rw [if_neg hrest] at h
    cases hlines : lines sep rest with
    | nil => exact hrest (lines_eq_nil.1 hlines)
    | cons l ls =>
      rw [hlines] at h
      exact (lines_eq_cons hlines).1 (List.cons.inj (List.cons.inj h).1).2
  | cons b l ih =>
    refine ih ?_
    rw [append_cons] at h ⊢
    exact lines_tail h (by simp)

end Lines
