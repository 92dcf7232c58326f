/-
A list that is read round and round, with the index of the place to read next.

`upcoming l i` is the list in the order in which it will be read; an index behind the end stands for the first place.

Results:
- `upcoming_perm`: one round reads every place once;
- `upcoming_succ`: to read one entry puts it behind the others;
- `drops_upcoming_of_le`, `drops_upcoming_of_lt`: an entry that is taken out of the list is missing in the round, and nothing
  else changes, if the index follows the entries behind it;
- `Drops.head?`: what is read next afterwards.
-/
import Mathlib.Data.List.Rotate

namespace Rotation

open List

variable {α : Type}

def upcoming (l : List α) (i : ℕ) : List α := if i < l.length then l.drop i ++ l.take i else l

variable {l : List α}

theorem upcoming_of_lt {i : ℕ} (h : i < l.length) : upcoming l i = l.drop i ++ l.take i := if_pos h

theorem upcoming_of_le {i : ℕ} (h : l.length ≤ i) : upcoming l i = l := if_neg (not_lt.2 h)

theorem upcoming_zero (l : List α) : upcoming l 0 = l := by
  unfold upcoming
  split_ifs
  · rw [drop_zero, take_zero, append_nil]
  · rfl

theorem upcoming_wrap (l : List α) (i : ℕ) : upcoming l (if l.length ≤ i then 0 else i) = upcoming l i := by
  split_ifs with h
  · rw [upcoming_zero, upcoming_of_le h]
  · rfl

theorem upcoming_eq {i : ℕ} (h : i ≤ l.length) : upcoming l i = l.drop i ++ l.take i := by
  rcases Nat.lt_or_eq_of_le h with hlt | rfl
  · exact upcoming_of_lt hlt
  · rw [upcoming_of_le le_rfl, drop_length, take_length, nil_append]

theorem upcoming_perm (l : List α) (i : ℕ) : (upcoming l i).Perm l := by
  unfold upcoming
  split_ifs
  · calc (l.drop i ++ l.take i).Perm (l.take i ++ l.drop i) := perm_append_comm
      _ = l := take_append_drop i l
  · exact List.Perm.refl l

theorem head?_upcoming {i : ℕ} (h : i < l.length) : (upcoming l i).head? = some l[i] := by
  rw [upcoming_of_lt h, drop_eq_getElem_cons h]
  rfl

theorem upcoming_succ {i : ℕ} (h : i < l.length) : upcoming l (i + 1) = (upcoming l i).tail ++ [l[i]] := by
  rw [upcoming_eq (Nat.succ_le_of_lt h), upcoming_of_lt h, drop_eq_getElem_cons h, cons_append, tail_cons,
    append_assoc, take_concat_get' l i h]

/-! ## An entry less -/

/-- `l'` is `l` without one occurrence of `x` -/
def Drops (x : α) (l l' : List α) : Prop := ∃ u v, l = u ++ x :: v ∧ l' = u ++ v

/-- the next entry is the same, or the one behind it if it was taken out -/
theorem Drops.head? {x : α} {l' : List α} (h : Drops x l l') (hnodup : l.Nodup) :
    (l.head? = some x → l'.head? = l.tail.head?) ∧ (l.head? ≠ some x → l'.head? = l.head?) := by
  obtain ⟨u, v, rfl, rfl⟩ := h
  cases u with
  | nil => exact ⟨fun _ => rfl, fun hne => absurd rfl hne⟩
  | cons y u =>
    refine ⟨fun hy => ?_, fun _ => rfl⟩
    -- then `x` stands in the list twice
    obtain rfl : y = x := Option.some_inj.1 hy
    have hnot := (nodup_cons.1 hnodup).1
    exact absurd (mem_append_right u mem_cons_self) hnot

theorem drops_upcoming_of_le {a b : List α} {x : α} {i : ℕ} (h : i ≤ a.length) :
    Drops x (upcoming (a ++ x :: b) i) (upcoming (a ++ b) i) := by
  refine ⟨a.drop i, b ++ a.take i, ?_, ?_⟩
  · have hle : i ≤ (a ++ x :: b).length := h.trans (prefix_append a _).length_le
    rw [upcoming_eq hle, drop_append_of_le_length h, take_append_of_le_length h, append_assoc, cons_append]
  · have hle : i ≤ (a ++ b).length := h.trans (prefix_append a b).length_le
    rw [upcoming_eq hle, drop_append_of_le_length h, take_append_of_le_length h, append_assoc]

theorem drops_upcoming_of_lt {a b : List α} {x : α} {i : ℕ} (h : a.length ≤ i) :
    Drops x (upcoming (a ++ x :: b) (i + 1)) (upcoming (a ++ b) i) := by
  by_cases hend : i < (a ++ b).length
  · obtain ⟨k, rfl⟩ := Nat.exists_eq_add_of_le h
    have hend' : a.length + k + 1 < (a ++ x :: b).length := by
      rw [length_append, length_cons]
      rw [length_append] at hend
      omega
    have hsucc : a.length + k + 1 = a.length + (k + 1) := Nat.add_assoc _ _ _
    refine ⟨b.drop k ++ a, b.take k, ?_, ?_⟩
    · rw [upcoming_of_lt hend', hsucc, drop_length_add_append, take_length_add_append, drop_succ_cons,
        take_succ_cons, append_assoc]
    · rw [upcoming_of_lt hend, drop_length_add_append, take_length_add_append, append_assoc]
  · refine ⟨a, b, ?_, upcoming_of_le (not_lt.1 hend)⟩
    apply upcoming_of_le
    rw [length_append] at hend
    rw [length_append, length_cons]
    omega

end Rotation
