/-
Items packed into groups from the left: an item joins the group in hand if there is room for it, and begins the next one
if not.

Results:
- `pack_flatten`: the groups one after the other are the items;
- `nil_mem_pack_iff`: when there is an empty group;
- `head_pack`: the first group begins the items.
-/
import Mathlib.Tactic

namespace Packing

variable {α : Type} {joins : List α → α → Bool}

/-- the group in hand behind one more item -/
def hand (joins : List α → α → Bool) (g : List α) (a : α) : List α := if joins g a then g ++ [a] else [a]

/-- the groups, from the one in hand on -/
def pack (joins : List α → α → Bool) (g : List α) : List α → List (List α)
  | [] => [g]
  | a :: as => if joins g a then pack joins (g ++ [a]) as else g :: pack joins [a] as

variable (g as : List α)

theorem pack_cons (a : α) (as : List α) :
    pack joins g (a :: as) = (if joins g a then [] else [g]) ++ pack joins (hand joins g a) as := by
  rw [pack, hand]
  split <;> rfl

theorem pack_ne_nil : pack joins g as ≠ [] := by
  induction as generalizing g with
  | nil => exact List.cons_ne_nil _ _
  | cons a as ih =>
    rw [pack_cons]
    exact List.append_ne_nil_of_right_ne_nil _ (ih _)

theorem pack_flatten : (pack joins g as).flatten = g ++ as := by
  induction as generalizing g with
  | nil => simp [pack]
  | cons a as ih =>
    rw [pack_cons, List.flatten_append, ih, hand]
    split <;> simp

/-! ## Empty groups -/

theorem hand_ne_nil (a : α) : hand joins g a ≠ [] := by
  unfold hand
  split <;> simp

theorem nil_notMem_pack {g : List α} (hg : g ≠ []) (as : List α) : [] ∉ pack joins g as := by
  induction as generalizing g with
  | nil => simpa [pack] using hg.symm
  | cons a as ih =>
    rw [pack_cons, List.mem_append, not_or]
    refine ⟨?_, ih (hand_ne_nil g a)⟩
    split
    · exact List.not_mem_nil
    · simpa using hg.symm

/-- **Empty groups.** There is one if there are no items, or if there is no room for the first one. -/
theorem nil_mem_pack_iff : [] ∈ pack joins [] as ↔ ∀ a ∈ as.head?, joins [] a = false := by
  cases as with
  | nil => simp [pack]
  | cons a as =>
    rw [pack_cons, List.mem_append, or_iff_left (nil_notMem_pack (hand_ne_nil [] a) as)]
    cases h : joins [] a <;> simp [h]

/-! ## The first group -/

theorem head_pack (joins : List α → α → Bool) (g as : List α) :
    ∃ n, (pack joins g as).head? = some (g ++ as.take n) := by
  induction as generalizing g with
  | nil => exact ⟨0, by simp [pack]⟩
  | cons a as ih =>
    cases h : joins g a with
    | true =>
      obtain ⟨n, hhead⟩ := ih (g ++ [a])
      exact ⟨n + 1, by rw [pack, if_pos h, hhead, List.take_succ_cons, List.append_assoc, List.singleton_append]⟩
    | false => exact ⟨0, by simp [pack, h]⟩

end Packing
