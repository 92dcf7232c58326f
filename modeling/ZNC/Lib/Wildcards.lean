/-
Patterns with wildcards over any alphabet: one letter stands for any text, another for any letter, and each other for itself.

A text matches if it can be split into parts, one for each letter of the pattern. A pattern that begins with letters of one part
each can be moved along a text: it fits at a place or at a later one, and a later one leaves less text for what comes behind it.

Results:
- `matches_cons`, `matches_append`: a text is split where the pattern is;
- `matches_star_cons`: a star takes nothing or one letter more;
- `matches_later`: a star behind a fixed beginning makes up for every later place of that beginning.
-/
import Mathlib.Data.List.Forall2

namespace Wildcards

open List

variable {α : Type} {star any : α}

/-- the parts of a text that a letter of a pattern stands for -/
def Fits (star any c : α) (part : List α) : Prop := c = star ∨ c = any ∧ part.length = 1 ∨ c ≠ any ∧ part = [c]

/-- **A text can be split** into parts that fit the letters of a pattern. -/
def Matches (star any : α) (wild s : List α) : Prop :=
  ∃ parts : List (List α), parts.flatten = s ∧ List.Forall₂ (Fits star any) wild parts

/-- letters that stand for one letter each -/
def Fixed (star : α) (wild : List α) : Prop := star ∉ wild

variable {wild s : List α}

theorem matches_nil : Matches star any [] s ↔ s = [] := by
  constructor
  · rintro ⟨parts, rfl, hfits⟩
    cases hfits
    rfl
  · rintro rfl
    exact ⟨[], rfl, List.Forall₂.nil⟩

theorem matches_cons {c : α} :
    Matches star any (c :: wild) s ↔ ∃ part t, s = part ++ t ∧ Fits star any c part ∧ Matches star any wild t := by
  constructor
  · rintro ⟨parts, rfl, hfits⟩
    cases hfits with
    | cons hpart hrest => exact ⟨_, _, rfl, hpart, _, rfl, hrest⟩
  · rintro ⟨part, t, rfl, hpart, parts, rfl, hrest⟩
    exact ⟨part :: parts, rfl, hrest.cons hpart⟩

theorem matches_append {wild' : List α} :
    Matches star any (wild ++ wild') s ↔ ∃ t t', s = t ++ t' ∧ Matches star any wild t ∧ Matches star any wild' t' := by
  induction wild generalizing s with
  | nil =>
    constructor
    · intro h
      exact ⟨[], s, rfl, matches_nil.2 rfl, h⟩
    · rintro ⟨t, t', rfl, ht, ht'⟩
      rw [matches_nil.1 ht]
      exact ht'
  | cons c wild ih =>
    rw [cons_append, matches_cons]
    constructor
    · rintro ⟨part, r, rfl, hpart, hr⟩
      obtain ⟨t, t', rfl, ht, ht'⟩ := ih.1 hr
      exact ⟨part ++ t, t', (append_assoc _ _ _).symm, matches_cons.2 ⟨part, t, rfl, hpart, ht⟩, ht'⟩
    · rintro ⟨t, t', rfl, ht, ht'⟩
      obtain ⟨part, r, rfl, hpart, hr⟩ := matches_cons.1 ht
      exact ⟨part, r ++ t', append_assoc _ _ _, hpart, ih.2 ⟨r, t', rfl, hr, ht'⟩⟩

/-! ## Stars -/

theorem matches_star :
    Matches star any (star :: wild) s ↔ ∃ t t', s = t ++ t' ∧ Matches star any wild t' := by
  rw [matches_cons]
  constructor
  · rintro ⟨part, t, hs, -, ht⟩
    exact ⟨part, t, hs, ht⟩
  · rintro ⟨t, t', hs, ht'⟩
    exact ⟨t, t', hs, .inl rfl, ht'⟩

theorem matches_star_nil : Matches star any (star :: wild) [] ↔ Matches star any wild [] := by
  rw [matches_star]
  constructor
  · rintro ⟨t, t', hs, ht'⟩
    rwa [(append_eq_nil_iff.1 hs.symm).2] at ht'
  · intro h
    exact ⟨[], [], rfl, h⟩

theorem matches_star_cons {c : α} :
    Matches star any (star :: wild) (c :: s) ↔ Matches star any wild (c :: s) ∨ Matches star any (star :: wild) s := by
  rw [matches_star, matches_star]
  constructor
  · rintro ⟨t, t', hs, ht'⟩
    cases t with
    | nil =>
      left
      rwa [hs]
    | cons b t =>
      right
      exact ⟨t, t', (List.cons.inj hs).2, ht'⟩
  · rintro (h | ⟨t, t', rfl, ht'⟩)
    · exact ⟨[], c :: s, rfl, h⟩
    · exact ⟨c :: t, t', rfl, ht'⟩

theorem matches_star_of_suffix {t : List α} (hsuffix : t <:+ s) (h : Matches star any (star :: wild) t) :
    Matches star any (star :: wild) s := by
  obtain ⟨r, rfl⟩ := hsuffix
  obtain ⟨a, b, rfl, hb⟩ := matches_star.1 h
  exact matches_star.2 ⟨r ++ a, b, by rw [append_assoc], hb⟩

theorem matches_only_star : Matches star any [star] s :=
  matches_star.2 ⟨s, [], (append_nil s).symm, matches_nil.2 rfl⟩

/-! ## Letters of one part -/

theorem matches_letter {c : α} (hc : c ≠ star) :
    Matches star any (c :: wild) s ↔ ∃ b t, s = b :: t ∧ (c = b ∨ c = any) ∧ Matches star any wild t := by
  rw [matches_cons]
  constructor
  · rintro ⟨part, t, rfl, hpart, ht⟩
    rcases hpart with hstar | ⟨hany, hlength⟩ | ⟨-, rfl⟩
    · exact absurd hstar hc
    · obtain ⟨b, rfl⟩ := length_eq_one_iff.1 hlength
      exact ⟨b, t, rfl, .inr hany, ht⟩
    · exact ⟨c, t, rfl, .inl rfl, ht⟩
  · rintro ⟨b, t, rfl, hletter, ht⟩
    refine ⟨[b], t, rfl, .inr ?_, ht⟩
    by_cases hany : c = any
    · exact .inl ⟨hany, rfl⟩
    · exact .inr ⟨hany, by rw [hletter.resolve_right hany]⟩

theorem length_of_fixed (hfixed : Fixed star wild) (h : Matches star any wild s) :
    s.length = wild.length := by
  induction wild generalizing s with
  | nil => rw [matches_nil.1 h]
  | cons c wild ih =>
    obtain ⟨hc, hfixed⟩ := not_or.1 fun hmem => hfixed (mem_cons.2 hmem)
    obtain ⟨b, t, rfl, -, ht⟩ := (matches_letter (Ne.symm hc)).1 h
    rw [length_cons, length_cons, ih hfixed ht]

theorem matches_later {u w : List α} (hfixed : Fixed star u) (hu : Matches star any u w)
    (h : Matches star any (star :: (u ++ star :: wild)) (w ++ s).tail) : Matches star any (star :: wild) s := by
  obtain ⟨skipped, r, hr, hrest⟩ := matches_star.1 h
  obtain ⟨t, t', rfl, ht, ht'⟩ := matches_append.1 hrest
  refine matches_star_of_suffix ?_ ht'
  -- what is left is a suffix of the text, and not longer than what is left of it now
  have hsuffix : t' <:+ w ++ s := by
    refine List.IsSuffix.trans ?_ (tail_suffix _)
    rw [hr]
    exact ⟨skipped ++ t, append_assoc _ _ _⟩
  have hlength : t'.length ≤ s.length := by
    have hw := length_of_fixed hfixed hu
    have hfront := length_of_fixed hfixed ht
    have hall := congrArg List.length hr
    simp only [length_tail, length_append] at hall
    omega
  exact suffix_of_suffix_length_le hsuffix (suffix_append w s) hlength

theorem not_matches_of_short {u : List α} (hfixed : Fixed star u) (hshort : s.length < u.length) :
    ¬Matches star any (star :: (u ++ wild)) s := by
  intro h
  obtain ⟨skipped, r, rfl, hrest⟩ := matches_star.1 h
  obtain ⟨t, t', rfl, ht, -⟩ := matches_append.1 hrest
  have hfront := length_of_fixed hfixed ht
  simp only [length_append] at hshort
  omega

end Wildcards
