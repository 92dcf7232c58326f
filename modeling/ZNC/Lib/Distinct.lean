/-
Lists without two related entries: association lists whose keys are compared by some relation, a table of open handles.

`Distinct r l` says that no two places of `l` hold entries that `r` relates. An entry found by such a list is then the
only one of its kind, so that what is done to the first match is done to all of them.

Results:
- `Distinct.eq_of_rel`: related entries are one entry;
- `Distinct.mem_modify`, `Distinct.mem_eraseP`: the entries of a list in which one was changed or removed;
- `Distinct.findIdx?_eq`: a search finds every entry that matches it.
-/
import Mathlib.Tactic

/-- no two places of the list hold related entries -/
def Distinct {α : Type} (r : α → α → Prop) (l : List α) : Prop := l.Pairwise fun a b => ¬r a b

namespace Distinct

open List

variable {α : Type} {r : α → α → Prop}

instance decidable (r : α → α → Prop) [DecidableRel r] (l : List α) : Decidable (Distinct r l) :=
  inferInstanceAs (Decidable (l.Pairwise fun a b => ¬r a b))

theorem nil : Distinct r [] := List.Pairwise.nil

theorem eq_of_rel (hsymm : ∀ a b, r a b → r b a) {l : List α} (h : Distinct r l) {a b : α} (ha : a ∈ l) (hb : b ∈ l)
    (hr : r a b) : a = b := by
  by_contra hne
  have : Std.Symm fun a b => ¬r a b := ⟨fun a b hn hba => hn (hsymm b a hba)⟩
  exact List.Pairwise.forall h ha hb hne hr

variable {l : List α}

theorem concat (h : Distinct r l) {a : α} (ha : ∀ b ∈ l, ¬r b a) : Distinct r (l ++ [a]) := by
  rw [Distinct, pairwise_append]
  exact ⟨h, pairwise_singleton _ _, fun b hb c hc => by rw [mem_singleton.1 hc]; exact ha b hb⟩

theorem eraseP (h : Distinct r l) (p : α → Bool) : Distinct r (l.eraseP p) :=
  List.Pairwise.sublist eraseP_sublist h

theorem split_at {l : List α} (h : Distinct r l) (hsymm : ∀ a b, r a b → r b a) {i : ℕ} {a : α} (ha : l[i]? = some a)
    (f : α → α) : ∃ pre post, l = pre ++ a :: post ∧ l.modify i f = pre ++ f a :: post ∧ ∀ b ∈ pre ++ post, ¬r b a := by
  obtain ⟨hi, rfl⟩ := List.getElem?_eq_some_iff.1 ha
  have hl : l = l.take i ++ l[i] :: l.drop (i + 1) := by simp
  refine ⟨l.take i, l.drop (i + 1), hl, modify_eq_take_cons_drop hi, fun b hb hr => ?_⟩
  rw [Distinct, hl, pairwise_append, pairwise_cons] at h
  obtain ⟨-, ⟨hpost, -⟩, hpre⟩ := h
  rcases mem_append.1 hb with hb | hb
  · exact hpre b hb _ mem_cons_self hr
  · exact hpost b hb (hsymm _ _ hr)

theorem mem_modify (h : Distinct r l) (hsymm : ∀ a b, r a b → r b a) {i : ℕ} {a : α} (ha : l[i]? = some a)
    (hrefl : r a a) (f : α → α) (b : α) : b ∈ l.modify i f ↔ b = f a ∨ (b ∈ l ∧ ¬r b a) := by
  obtain ⟨pre, post, hl, hmod, hother⟩ := h.split_at hsymm ha f
  rw [hmod, hl]
  simp only [mem_append, mem_cons] at hother ⊢
  constructor
  · rintro (hb | rfl | hb)
    · exact .inr ⟨.inl hb, hother b (.inl hb)⟩
    · exact .inl rfl
    · exact .inr ⟨.inr (.inr hb), hother b (.inr hb)⟩
  · rintro (rfl | ⟨hb | rfl | hb, hr⟩)
    · exact .inr (.inl rfl)
    · exact .inl hb
    · exact absurd hrefl hr
    · exact .inr (.inr hb)

theorem modify {l : List α} (h : Distinct r l) {f : α → α} (hf : ∀ a b, r (f a) b → r a b)
    (hf' : ∀ a b, r a (f b) → r a b)
    (i : ℕ) : Distinct r (l.modify i f) := by
  induction l generalizing i with
  | nil => rw [modify_nil]; exact nil
  | cons a l ih =>
    obtain ⟨ha, hl⟩ := pairwise_cons.1 h
    cases i with
    | zero => exact pairwise_cons.2 ⟨fun b hb hr => ha b hb (hf a b hr), hl⟩
    | succ i =>
      rw [modify_succ_cons]
      refine pairwise_cons.2 ⟨fun b hb hr => ?_, ih hl i⟩
      obtain ⟨j, hj⟩ := mem_iff_getElem?.1 hb
      rw [getElem?_modify] at hj
      obtain ⟨c, hc, rfl⟩ := Option.map_eq_some_iff.1 hj
      have hmem := mem_of_getElem? hc
      split_ifs at hr
      · exact ha c hmem (hf' a c hr)
      · exact ha c hmem hr

theorem mem_eraseP (h : Distinct r l) {p : α → Bool} (hp : ∀ a b, p a → p b → r a b) (a : α) :
    a ∈ l.eraseP p ↔ a ∈ l ∧ ¬p a := by
  induction l with
  | nil => simp
  | cons b l ih =>
    obtain ⟨hb, hl⟩ := pairwise_cons.1 h
    by_cases hpb : p b
    · rw [eraseP_cons_of_pos hpb, mem_cons]
      constructor
      · intro ha
        exact ⟨.inr ha, fun hpa => hb a ha (hp b a hpb hpa)⟩
      · rintro ⟨rfl | ha, hpa⟩
        · exact absurd hpb hpa
        · exact ha
    · rw [eraseP_cons_of_neg hpb, mem_cons, mem_cons, ih hl]
      constructor
      · rintro (rfl | ha)
        · exact ⟨.inl rfl, hpb⟩
        · exact ⟨.inr ha.1, ha.2⟩
      · rintro ⟨rfl | ha, hpa⟩
        · exact .inl rfl
        · exact .inr ⟨ha, hpa⟩

theorem findIdx?_eq (h : Distinct r l) (hsymm : ∀ a b, r a b → r b a) {p : α → Bool} (hp : ∀ a b, p a → p b → r a b)
    {a : α} (ha : a ∈ l) (hpa : p a) : ∃ i, l.findIdx? p = some i ∧ l[i]? = some a := by
  cases hfind : l.findIdx? p with
  | none => exact absurd hpa (by simpa using findIdx?_eq_none_iff.1 hfind a ha)
  | some i =>
    obtain ⟨hi, hpi, -⟩ := findIdx?_eq_some_iff_getElem.1 hfind
    refine ⟨i, rfl, ?_⟩
    rw [getElem?_eq_getElem hi, h.eq_of_rel hsymm (getElem_mem hi) ha (hp _ _ hpi hpa)]

end Distinct
