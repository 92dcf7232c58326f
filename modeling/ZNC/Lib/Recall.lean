/-
A list that is remembered as a set: it comes back as some entries that are known anyway, and then the others in the
order of their keys.

An entry is added unless a related one is there (`add`). What comes back is what is added to the known entries, in the
order of the keys.

Results:
- `foldl_add`: what is added to a list;
- `recall_eq_iff`: which lists come back as they were (`Kept`);
- `kept_append_iff`, `kept_erase_iff`, `not_kept_swap`: when a list that comes back still does so behind a change.
-/
import Mathlib.Tactic
import Mathlib.Data.List.Sort

namespace Recall

open List

variable {α κ : Type}

/-! ## Adding -/

section Add

variable (r : α → α → Prop) [DecidableRel r]

/-- an entry is added unless a related one is there -/
def add (l : List α) (a : α) : List α := if ∃ x ∈ l, r x a then l else l ++ [a]

/-- no related entry is in the list -/
def fresh (l : List α) (a : α) : Bool := decide (∀ x ∈ l, ¬r x a)

variable {r}

theorem fresh_iff {l : List α} {a : α} : fresh r l a = true ↔ ∀ x ∈ l, ¬r x a := decide_eq_true_iff

/-- entries of which no two are related are each added if they are new -/
theorem foldl_add {l as : List α} (h : (as.filter (fresh r l)).Pairwise fun a b => ¬r a b) :
    as.foldl (add r) l = l ++ as.filter (fresh r l) := by
  induction as generalizing l with
  | nil => simp
  | cons a as ih =>
    rw [foldl_cons, add]
    by_cases ha : ∃ x ∈ l, r x a
    · have hno : ¬fresh r l a = true := by
        rw [fresh_iff]
        simpa using ha
      rw [filter_cons_of_neg hno] at h ⊢
      rw [if_pos ha, ih h]
    · have hyes : fresh r l a = true := by
        rw [fresh_iff]
        simpa using ha
      rw [filter_cons_of_pos hyes] at h ⊢
      obtain ⟨hfirst, hrest⟩ := pairwise_cons.1 h
      have hsame : as.filter (fresh r (l ++ [a])) = as.filter (fresh r l) := by
        refine filter_congr fun b hb => Bool.eq_iff_iff.2 ?_
        rw [fresh_iff, fresh_iff, forall_mem_append, forall_mem_singleton]
        refine ⟨fun hall => hall.1, fun hall => ⟨hall, hfirst b ?_⟩⟩
        exact mem_filter.2 ⟨hb, fresh_iff.2 hall⟩
      rw [if_neg ha, ih (by rwa [hsame]), hsame, append_assoc, singleton_append]

theorem pairwise_add {l : List α} (h : l.Pairwise fun a b => ¬r a b) (a : α) :
    (add r l a).Pairwise fun a b => ¬r a b := by
  unfold add
  split
  · exact h
  · rename_i hno
    rw [pairwise_append]
    refine ⟨h, pairwise_singleton _ _, fun x hx b hb => ?_⟩
    rw [mem_singleton.1 hb]
    exact fun hr => hno ⟨x, hx, hr⟩

end Add

/-! ## Lists that come back -/

variable [LinearOrder κ]

/-- the list begins with the known entries, and goes on in the order of the keys -/
def Kept (key : α → κ) (known l : List α) : Prop := ∃ t, l = known ++ t ∧ t.Pairwise fun a b => key a < key b

theorem forall_not_related {r : α → α → Prop} (hsymm : ∀ a b, r a b → r b a) {l : List α}
    (h : l.Pairwise fun a b => ¬r a b) {a b : α} (ha : a ∈ l) (hb : b ∈ l) (hne : a ≠ b) : ¬r a b := by
  have : Std.Symm fun a b : α => ¬r a b := ⟨fun a b hab hba => hab (hsymm b a hba)⟩
  exact h.forall ha hb hne

theorem eq_of_sorted {key : α → κ} {l l' : List α} (hl : l.Pairwise fun a b => key a < key b)
    (hl' : l'.Pairwise fun a b => key a < key b) (h : ∀ a, a ∈ l ↔ a ∈ l') : l = l' := by
  have : Std.Antisymm fun a b : α => key a < key b := ⟨fun a b hab hba => absurd hab hba.asymm⟩
  have : Std.Irrefl fun a b : α => key a < key b := ⟨fun a => lt_irrefl _⟩
  exact hl.eq_of_mem_iff hl' h

theorem recall_eq_iff {r : α → α → Prop} [DecidableRel r] (hrefl : ∀ a, r a a) (hsymm : ∀ a b, r a b → r b a)
    {key : α → κ} {known l as : List α} (hl : l.Pairwise fun a b => ¬r a b) (has : as.Pairwise fun a b => key a < key b)
    (hmem : ∀ a, a ∈ as ↔ a ∈ l ∨ a ∈ known) : as.foldl (add r) known = l ↔ Kept key known l := by
  have hin : ∀ a, a ∈ as.filter (fresh r known) ↔ a ∈ l ∧ ∀ x ∈ known, ¬r x a := by
    intro a
    rw [mem_filter, fresh_iff, hmem]
    refine ⟨fun h => ⟨h.1.resolve_right fun hk => h.2 a hk (hrefl a), h.2⟩, fun h => ⟨.inl h.1, h.2⟩⟩
  have hsorted : (as.filter (fresh r known)).Pairwise fun a b => key a < key b := has.sublist filter_sublist
  have hdistinct : (as.filter (fresh r known)).Pairwise fun a b => ¬r a b := by
    refine hsorted.imp_of_mem fun {a b} ha hb hlt => ?_
    refine forall_not_related hsymm hl ((hin a).1 ha).1 ((hin b).1 hb).1 fun heq => ?_
    exact lt_irrefl _ (heq ▸ hlt)
  rw [foldl_add hdistinct]
  refine ⟨fun h => ⟨_, h.symm, hsorted⟩, fun h => ?_⟩
  obtain ⟨t, rfl, ht⟩ := h
  have hcross := (pairwise_append.1 hl).2.2
  have hperm : ∀ a, a ∈ as.filter (fresh r known) ↔ a ∈ t := by
    intro a
    rw [hin, mem_append]
    refine ⟨fun h => h.1.resolve_left fun hk => h.2 a hk (hrefl a), fun h => ⟨.inr h, fun x hx => hcross x hx a h⟩⟩
  rw [append_cancel_left_eq]
  exact eq_of_sorted hsorted ht hperm

/-! ## Changes -/

/-- **An added entry** keeps the order if it belongs behind all those that are not known. -/
theorem kept_append_iff {key : α → κ} {known l : List α} (h : Kept key known l) (hl : l.Nodup) (e : α) :
    Kept key known (l ++ [e]) ↔ ∀ x ∈ l, x ∉ known → key x < key e := by
  obtain ⟨t, rfl, ht⟩ := h
  have hback : Kept key known (known ++ t ++ [e]) ↔ (t ++ [e]).Pairwise fun a b => key a < key b := by
    refine ⟨fun h => ?_, fun h => ⟨t ++ [e], append_assoc _ _ _, h⟩⟩
    obtain ⟨u, hu, hsorted⟩ := h
    rw [append_assoc, append_cancel_left_eq] at hu
    rwa [hu]
  have hnew : ∀ x, (x ∈ known ++ t ∧ x ∉ known) ↔ x ∈ t := by
    intro x
    rw [mem_append]
    refine ⟨fun h => h.1.resolve_left h.2, fun h => ⟨.inr h, fun hk => ?_⟩⟩
    exact (nodup_append.1 hl).2.2 x hk x h rfl
  rw [hback, pairwise_append]
  refine ⟨fun h x hx hk => h.2.2 x ((hnew x).1 ⟨hx, hk⟩) e (mem_singleton_self e), fun h => ?_⟩
  refine ⟨ht, pairwise_singleton _ _, fun x hx b hb => ?_⟩
  rw [mem_singleton.1 hb]
  exact h x ((hnew x).2 hx).1 ((hnew x).2 hx).2

/-- **A removed entry** stays away if it is not known. -/
theorem kept_erase_iff [DecidableEq α] {key : α → κ} {known l : List α} (h : Kept key known l) (hl : l.Nodup) {e : α} :
    Kept key known (l.erase e) ↔ e ∉ known := by
  refine ⟨fun hkept hknown => ?_, fun hnew => ?_⟩
  · obtain ⟨u, hu, -⟩ := hkept
    refine hl.not_mem_erase (a := e) ?_
    rw [hu]
    exact mem_append_left u hknown
  · obtain ⟨t, rfl, ht⟩ := h
    exact ⟨t.erase e, erase_append_right t hnew, ht.sublist erase_sublist⟩

theorem kept_unique {key : α → κ} {known l l' : List α} (h : Kept key known l) (h' : Kept key known l')
    (hperm : l.Perm l') : l = l' := by
  obtain ⟨t, rfl, ht⟩ := h
  obtain ⟨t', rfl, ht'⟩ := h'
  rw [eq_of_sorted ht ht' fun a => ((perm_append_left_iff known).1 hperm).mem_iff]

/-- **Two entries that change places** are back in their old places afterwards. -/
theorem not_kept_swap {key : α → κ} {known l : List α} (h : Kept key known l) (hl : l.Nodup) {i j : ℕ}
    (hi : i < l.length) (hj : j < l.length) (hne : i ≠ j) : ¬Kept key known ((l.set i l[j]).set j l[i]) := by
  intro hkept
  have hsame := kept_unique h hkept (set_set_perm hi hj).symm
  have hget : l[j] = l[i] := by
    rw [ext_getElem_iff] at hsame
    have := hsame.2 j hj (by simpa using hj)
    simpa using this
  exact hne (hl.getElem_inj_iff.1 hget).symm

end Recall
