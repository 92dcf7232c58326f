/-
A numbered listing of the entries of a list by groups, in which entries that cannot be shown are taken out of the list.

An entry that is shown goes to the end of its group, under the number that it has among the entries that are left.

Results:
- `listing_left`, `listing_find`: the entries that are left, and the rows of a group;
- `mem_rows`: a row is that of the entry at the place of its number.
-/
import ZNC.Lib.OrdMap

namespace Listing

open List

variable {α β κ : Type} [LinearOrder κ]

/-- what was gone through: the entries that are left, and the groups -/
structure Shown (α β κ : Type) [LinearOrder κ] where
  left : List α
  groups : OrdMap κ (List β)

/-- nothing was gone through -/
def Shown.start : Shown α β κ := ⟨[], .empty⟩

-- the group of an entry, and its row under a number
variable (shown : α → Option (κ × (ℕ → β)))

def step (r : Shown α β κ) (a : α) : Shown α β κ :=
  match shown a with
  | none => r
  | some (k, row) => ⟨r.left ++ [a], r.groups.insert k ((r.groups.find k).getD [] ++ [row r.left.length])⟩

/-- the row of an entry in a group -/
def rowIn (k : κ) (x : α × ℕ) : Option β :=
  (shown x.1).bind fun y => if y.1 = k then some (y.2 x.2) else none

/-- the rows of a group, when all entries are shown -/
def rows (k : κ) (l : List α) : List β := l.zipIdx.filterMap (rowIn shown k)

variable {shown}

theorem rowIn_eq_some {k : κ} {x : α × ℕ} {b : β} :
    rowIn shown k x = some b ↔ ∃ row, shown x.1 = some (k, row) ∧ row x.2 = b := by
  rw [rowIn]
  cases shown x.1 with
  | none => simp
  | some y =>
    obtain ⟨k', row⟩ := y
    by_cases hk : k' = k <;> simp [hk]

theorem rows_append (k : κ) (l : List α) (a : α) :
    rows shown k (l ++ [a]) = rows shown k l ++ (rowIn shown k (a, l.length)).toList := by
  rw [rows, zipIdx_append, filterMap_append, Nat.zero_add, zipIdx_singleton]
  cases hrow : rowIn shown k (a, l.length) with
  | none => rw [filterMap_cons_none hrow]; rfl
  | some b => rw [filterMap_cons_some hrow]; rfl

theorem mem_rows {k : κ} {l : List α} {b : β} :
    b ∈ rows shown k l ↔ ∃ i a row, l[i]? = some a ∧ shown a = some (k, row) ∧ row i = b := by
  rw [rows, mem_filterMap]
  refine ⟨fun h => ?_, fun h => ?_⟩
  · obtain ⟨x, hx, hrow⟩ := h
    obtain ⟨row, hshown, rfl⟩ := rowIn_eq_some.1 hrow
    exact ⟨x.2, x.1, row, mem_zipIdx_iff_getElem?.1 hx, hshown, rfl⟩
  · obtain ⟨i, a, row, hget, hshown, rfl⟩ := h
    exact ⟨(a, i), mem_zipIdx_iff_getElem?.2 hget, rowIn_eq_some.2 ⟨row, hshown, rfl⟩⟩

theorem listing_left (l : List α) : (l.foldl (step shown) .start).left = l.filter fun a => (shown a).isSome := by
  induction l using List.reverseRecOn with
  | nil => rfl
  | append_singleton l a ih =>
    rw [foldl_append, foldl_cons, foldl_nil, filter_append, step, ← ih]
    cases hshown : shown a with
    | none => simp [hshown]
    | some y => simp [hshown]

theorem listing_find (l : List α) (k : κ) : (l.foldl (step shown) .start).groups.find k =
    if rows shown k (l.foldl (step shown) .start).left = [] then none
    else some (rows shown k (l.foldl (step shown) .start).left) := by
  induction l using List.reverseRecOn with
  | nil => rfl
  | append_singleton l a ih =>
    rw [foldl_append, foldl_cons, foldl_nil]
    set r := l.foldl (step shown) .start
    cases hshown : shown a with
    | none => rw [step, hshown]; exact ih
    | some y =>
      obtain ⟨k', row⟩ := y
      have hstep : step shown r a =
          ⟨r.left ++ [a], r.groups.insert k' ((r.groups.find k').getD [] ++ [row r.left.length])⟩ := by
        rw [step, hshown]
      have hrows : (r.groups.find k).getD [] = rows shown k r.left := by
        rw [ih]
        split
        · rename_i hnil
          rw [hnil]
          rfl
        · rfl
      rw [hstep, OrdMap.find_insert, rows_append, rowIn, hshown, Option.bind_some]
      by_cases hk : k = k'
      · subst hk
        rw [if_pos rfl, if_pos rfl, hrows, Option.toList_some,
          if_neg (append_ne_nil_of_right_ne_nil _ (cons_ne_nil _ _))]
      · rw [if_neg hk, if_neg (Ne.symm hk), Option.toList_none, append_nil]
        exact ih

end Listing
