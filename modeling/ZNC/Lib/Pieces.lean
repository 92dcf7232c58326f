/-
Pieces of a text between separators that are texts themselves.

`pieces sep l` cuts a text at the occurrences of `sep`, found from the left without overlap. There is always a piece, and pieces may
be empty; `skipSeps` passes over the separators at the head of a text.

Results:
- `intercalate_pieces`: with the separator in between, the pieces are the text;
- `getLast_pieces`: an empty last piece means that the text ends in the separator.
-/
import Mathlib.Tactic

namespace Pieces

open List

variable {α : Type} [DecidableEq α]

/-- the pieces of a text between separators -/
def pieces (sep : List α) : List α → List (List α)
  | [] => [[]]
  | c :: l =>
    if sep ≠ [] ∧ sep <+: c :: l then [] :: pieces sep ((c :: l).drop sep.length)
    else (pieces sep l).modifyHead (c :: ·)
termination_by l => l.length
decreasing_by
  · have h : 0 < sep.length := length_pos_iff.2 (by simp_all)
    rw [length_drop, length_cons]
    omega
  · exact Nat.lt_succ_self _

/-- the text behind the separators at its head -/
def skipSeps (sep : List α) (l : List α) : List α :=
  if sep ≠ [] ∧ sep <+: l then skipSeps sep (l.drop sep.length) else l
termination_by l.length
decreasing_by
  rename_i h
  have hpos := length_pos_iff.2 h.1
  have hle := h.2.length_le
  rw [length_drop]
  omega

theorem pieces_nil (sep : List α) : pieces sep [] = [[]] := by rw [pieces]

theorem pieces_sep {sep : List α} (hsep : sep ≠ []) (l : List α) : pieces sep (sep ++ l) = [] :: pieces sep l := by
  obtain ⟨c, t, rfl⟩ := exists_cons_of_ne_nil hsep
  rw [cons_append, pieces, if_pos ⟨hsep, cons_append ▸ prefix_append (c :: t) l⟩, ← cons_append, drop_left]

theorem pieces_cons {sep : List α} {c : α} {l : List α} (h : ¬sep <+: c :: l) :
    pieces sep (c :: l) = (pieces sep l).modifyHead (c :: ·) := by
  rw [pieces, if_neg (fun h' => h h'.2)]

theorem skipSeps_eq_self {sep l : List α} (h : ¬sep <+: l) : skipSeps sep l = l := by
  rw [skipSeps, if_neg (fun h' => h h'.2)]

theorem sep_induction {sep : List α} (hsep : sep ≠ []) {P : List α → Prop} (hnil : P [])
    (hskip : ∀ l, P l → P (sep ++ l))
    (hcons : ∀ c l, ¬sep <+: c :: l → P l → P (c :: l)) (l : List α) : P l := by
  match l with
  | [] => exact hnil
  | c :: l =>
    by_cases h : sep <+: c :: l
    · obtain ⟨r, hr⟩ := h
      have hlen : r.length ≤ l.length := by
        have h := congrArg List.length hr
        have hpos := length_pos_iff.2 hsep
        rw [length_append, length_cons] at h
        omega
      rw [← hr]
      exact hskip r (sep_induction hsep hnil hskip hcons r)
    · exact hcons c l h (sep_induction hsep hnil hskip hcons l)
termination_by l.length

variable {sep : List α} (hsep : sep ≠ [])
include hsep

theorem pieces_ne_nil (l : List α) : pieces sep l ≠ [] := by
  induction l using sep_induction hsep with
  | hnil => rw [pieces_nil]; exact cons_ne_nil _ _
  | hskip l _ => rw [pieces_sep hsep]; exact cons_ne_nil _ _
  | hcons c l h ih =>
    obtain ⟨p, ps, hp⟩ := exists_cons_of_ne_nil ih
    rw [pieces_cons h, hp]
    exact cons_ne_nil _ _

theorem intercalate_pieces (l : List α) : sep.intercalate (pieces sep l) = l := by
  induction l using sep_induction hsep with
  | hnil => rw [pieces_nil, intercalate_singleton]
  | hskip l ih =>
    rw [pieces_sep hsep, intercalate_cons_of_ne_nil (pieces_ne_nil hsep l), ih]
    rfl
  | hcons c l h ih =>
    obtain ⟨p, ps, hp⟩ := exists_cons_of_ne_nil (pieces_ne_nil hsep l)
    rw [hp] at ih
    rw [pieces_cons h, hp, modifyHead_cons]
    cases ps with
    | nil =>
      rw [intercalate_singleton] at ih ⊢
      rw [ih]
    | cons q ps =>
      rw [intercalate_cons_cons] at ih ⊢
      rw [cons_append, cons_append, ih]

theorem getLast_pieces {l : List α} (hne : l ≠ [])
    (h : (pieces sep l).getLast (pieces_ne_nil hsep l) = []) : sep <:+ l := by
  induction l using sep_induction hsep with
  | hnil => exact absurd rfl hne
  | hskip l ih =>
    by_cases hl : l = []
    · rw [hl, append_nil]
    · simp only [pieces_sep hsep, getLast_cons (pieces_ne_nil hsep l)] at h
      exact (ih hl h).trans (suffix_append _ _)
  | hcons c l hc ih =>
    obtain ⟨p, ps, hp⟩ := exists_cons_of_ne_nil (pieces_ne_nil hsep l)
    simp only [pieces_cons hc, hp, modifyHead_cons] at h
    by_cases hps : ps = []
    · subst hps
      exact absurd h (cons_ne_nil _ _)
    · have hl : l ≠ [] := by
        rintro rfl
        rw [pieces_nil] at hp
        exact hps (List.cons.inj hp).2.symm
      rw [getLast_cons hps] at h
      refine (ih hl ?_).trans (suffix_cons c l)
      simp only [hp, getLast_cons hps]
      exact h

/-! ## Runs of separators -/

theorem skipSeps_sep (l : List α) : skipSeps sep (sep ++ l) = skipSeps sep l := by
  rw [skipSeps, if_pos ⟨hsep, prefix_append sep l⟩, drop_left]

end Pieces
