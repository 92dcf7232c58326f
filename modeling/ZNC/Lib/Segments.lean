/-
A word in a text: its first place, and the text cut behind each place.

`find w l` is the first place of `w` in `l`. `segments w l` cuts the text behind the first occurrence of the word, and goes on behind
it; what is left at the end has no occurrence. An occurrence is found from its own letters alone, so a text that grows at its end
keeps the place.

Results:
- `find_eq_some_iff`, `find_eq_none_iff`: what the first place is;
- `find_append`: the place in a longer text;
- `flatten_segments`, `segments_spec`: the segments are the text, each closed by the word but for the last.
-/
import Mathlib.Tactic

namespace Segments

open List

variable {α : Type} [DecidableEq α]

/-- the first place of a word -/
def find (w : List α) : List α → Option ℕ
  | [] => if w = [] then some 0 else none
  | c :: l => if w <+: c :: l then some 0 else (find w l).map (· + 1)

theorem find_zero {w l : List α} (h : w <+: l) : find w l = some 0 := by
  cases l with
  | nil => rw [find, if_pos (prefix_nil.1 h)]
  | cons c l => rw [find, if_pos h]

theorem find_cons {w : List α} {c : α} {l : List α} (h : ¬w <+: c :: l) : find w (c :: l) = (find w l).map (· + 1) := by
  rw [find, if_neg h]

theorem find_eq_some_iff {w l : List α} {i : ℕ} :
    find w l = some i ↔ i ≤ l.length ∧ w <+: l.drop i ∧ ∀ j < i, ¬w <+: l.drop j := by
  induction l generalizing i with
  | nil =>
    rw [find]
    split_ifs with hw
    · simp only [Option.some.injEq, length_nil, Nat.le_zero, drop_nil, prefix_nil]
      exact ⟨fun h => ⟨h.symm, hw, fun j hj => by omega⟩, fun h => h.1.symm⟩
    · simp only [drop_nil, prefix_nil, hw, false_and, and_false]
  | cons c l ih =>
    by_cases h : w <+: c :: l
    · rw [find_zero h, Option.some.injEq]
      constructor
      · rintro rfl
        exact ⟨Nat.zero_le _, h, fun j hj => absurd hj (Nat.not_lt_zero j)⟩
      · rintro ⟨-, -, hfirst⟩
        by_contra hi
        exact hfirst 0 (by omega) h
    · rw [find_cons h, Option.map_eq_some_iff]
      constructor
      · rintro ⟨k, hk, rfl⟩
        obtain ⟨hle, hat, hfirst⟩ := ih.1 hk
        refine ⟨by simpa using hle, hat, fun j hj => ?_⟩
        cases j with
        | zero => exact h
        | succ j => exact hfirst j (by omega)
      · rintro ⟨hle, hat, hfirst⟩
        cases i with
        | zero => exact absurd hat h
        | succ k =>
          refine ⟨k, ih.2 ⟨by simpa using hle, hat, fun j hj => ?_⟩, rfl⟩
          exact hfirst (j + 1) (by omega)

theorem find_eq_none_iff {w l : List α} : find w l = none ↔ ¬w <:+: l := by
  induction l with
  | nil =>
    rw [find, infix_nil]
    split_ifs with hw <;> simp [hw]
  | cons c l ih =>
    rw [infix_cons_iff, not_or, ← ih]
    by_cases h : w <+: c :: l
    · simp [find_zero h, h]
    · simp [find_cons h, h]

theorem find_bound {w l : List α} {i : ℕ} (h : find w l = some i) : i + w.length ≤ l.length := by
  obtain ⟨hle, hat, -⟩ := find_eq_some_iff.1 h
  have hlen := hat.length_le
  rw [length_drop] at hlen
  omega

theorem find_append {w l : List α} {i : ℕ} (h : find w l = some i) (r : List α) : find w (l ++ r) = some i := by
  have hbound := find_bound h
  obtain ⟨hle, hat, hfirst⟩ := find_eq_some_iff.1 h
  have hdrop {j : ℕ} (hj : j ≤ i) : (l ++ r).drop j = l.drop j ++ r := drop_append_of_le_length (by omega)
  refine find_eq_some_iff.2 ⟨by rw [length_append]; omega, ?_, fun j hj hprefix => hfirst j hj ?_⟩
  · rw [hdrop le_rfl]
    exact hat.trans (prefix_append _ _)
  · rw [hdrop hj.le] at hprefix
    refine prefix_of_prefix_length_le hprefix (prefix_append _ _) ?_
    rw [length_drop]
    omega

/-- a text that ends in its only occurrence of the word -/
def Closed (w p : List α) : Prop := w <:+ p ∧ ∀ j, w <+: p.drop j → j + w.length = p.length

section Cut

variable {w : List α}

/-- the text cut behind each occurrence -/
def segments (w : List α) (l : List α) : List (List α) :=
  if l = [] then []
  else
    match find w l with
    | none => [l]
    | some i => if w = [] then [l] else l.take (i + w.length) :: segments w (l.drop (i + w.length))
termination_by l.length
decreasing_by
  have hl : 0 < l.length := length_pos_iff.2 (by assumption)
  have hw : 0 < w.length := length_pos_iff.2 (by assumption)
  rw [length_drop]
  omega

theorem segments_nil (w : List α) : segments w [] = [] := by rw [segments, if_pos rfl]

theorem segments_none {l : List α} (hl : l ≠ []) (h : find w l = none) : segments w l = [l] := by
  rw [segments, if_neg hl, h]

theorem segments_some {l : List α} (hw : w ≠ []) {i : ℕ} (h : find w l = some i) :
    segments w l = l.take (i + w.length) :: segments w (l.drop (i + w.length)) := by
  have hl : l ≠ [] := by
    rintro rfl
    rw [find, if_neg hw] at h
    cases h
  rw [segments, if_neg hl, h]
  exact if_neg hw

theorem segments_induction (hw : w ≠ []) {P : List α → Prop} (hnil : P []) (hlast : ∀ l, l ≠ [] → find w l = none → P l)
    (hcut : ∀ l i, find w l = some i → P (l.drop (i + w.length)) → P l) (l : List α) : P l := by
  induction hn : l.length using Nat.strongRecOn generalizing l with
  | _ n ih =>
    by_cases hl : l = []
    · rw [hl]
      exact hnil
    · cases h : find w l with
      | none => exact hlast l hl h
      | some i =>
        refine hcut l i h (ih _ ?_ _ rfl)
        have hpos := length_pos_iff.2 hw
        have hlen := length_pos_iff.2 hl
        rw [length_drop]
        omega

theorem flatten_segments (hw : w ≠ []) (l : List α) : (segments w l).flatten = l := by
  induction l using segments_induction hw with
  | hnil => rw [segments_nil, flatten_nil]
  | hlast l hl h => rw [segments_none hl h, flatten_singleton]
  | hcut l i h ih => rw [segments_some hw h, flatten_cons, ih, take_append_drop]

theorem closed_take (hw : w ≠ []) {l : List α} {i : ℕ} (h : find w l = some i) : Closed w (l.take (i + w.length)) := by
  have hbound := find_bound h
  obtain ⟨-, ⟨r, hr⟩, hfirst⟩ := find_eq_some_iff.1 h
  have hlen : (l.take (i + w.length)).length = i + w.length := length_take_of_le hbound
  have htake : l.take (i + w.length) = l.take i ++ w := by
    rw [take_add, ← hr, take_left]
  refine ⟨⟨l.take i, htake.symm⟩, fun j hj => ?_⟩
  have hsub : w <+: l.drop j := by
    rw [drop_take] at hj
    exact hj.trans (List.take_prefix _ _)
  have hle := hj.length_le
  rw [length_drop, hlen] at hle
  rw [hlen]
  have hpos := length_pos_iff.2 hw
  have hnot : ¬j < i := fun hlt => hfirst j hlt hsub
  omega

theorem segments_spec (hw : w ≠ []) (l : List α) :
    ∃ ps last, segments w l = ps ++ (if last = [] then [] else [last]) ∧ (∀ p ∈ ps, Closed w p) ∧ ¬w <:+: last := by
  induction l using segments_induction hw with
  | hnil => exact ⟨[], [], segments_nil w, fun p hp => absurd hp List.not_mem_nil, fun h => hw (infix_nil.1 h)⟩
  | hlast l hl h =>
    refine ⟨[], l, ?_, fun p hp => absurd hp List.not_mem_nil, find_eq_none_iff.1 h⟩
    rw [segments_none hl h, if_neg hl, nil_append]
  | hcut l i h ih =>
    obtain ⟨ps, last, hsegs, hclosed, hlast⟩ := ih
    refine ⟨l.take (i + w.length) :: ps, last, ?_, forall_mem_cons.2 ⟨closed_take hw h, hclosed⟩, hlast⟩
    rw [segments_some hw h, hsegs, cons_append]

end Cut

end Segments
