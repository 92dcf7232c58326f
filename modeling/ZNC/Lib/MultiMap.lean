/-
Maps of sets: a relation between keys and values as a map from each key to the set of its values.

An operation that takes the last value of a key takes the key with it. `Full` says that no key is left with an empty set; then the
relation determines the map. Two maps of sets are `Inverse` when one has the relation of the other turned round.

Results:
- `mem_put`, `mem_drop`: what the two operations do to the relation;
- `Full.put`, `Full.drop`: they leave no empty sets;
- `ext_mem`: full maps with the same relation are the same;
- `Inverse.put`, `Inverse.drop`: done on both sides, they keep the maps inverse.
-/
import ZNC.Lib.OrdMap

namespace MultiMap

variable {K V : Type} [LinearOrder K] [LinearOrder V]

/-! ## Operations -/

def values (m : OrdMap K (OrdSet V)) (k : K) : OrdSet V := (m.find k).getD .empty

/-- `m[k].insert(v)` -/
def put (m : OrdMap K (OrdSet V)) (k : K) (v : V) : OrdMap K (OrdSet V) := m.insert k ((values m k).insert v)

/-- `v` is erased from the values of `k`, and `k` with the last of them -/
def drop (m : OrdMap K (OrdSet V)) (k : K) (v : V) : OrdMap K (OrdSet V) :=
  match m.find k with
  | none => m
  | some s => if (s.erase v).isEmpty then m.erase k else m.insert k (s.erase v)

/-- no key has an empty set -/
def Full (m : OrdMap K (OrdSet V)) : Prop := ∀ k s, m.find k = some s → ∃ v, v ∈ s

/-- the one relates keys to values as the other relates values to keys -/
def Inverse (m : OrdMap K (OrdSet V)) (m' : OrdMap V (OrdSet K)) : Prop := ∀ k v, v ∈ values m k ↔ k ∈ values m' v

variable {m m' : OrdMap K (OrdSet V)}

/-! ## The relation -/

theorem values_insert (m : OrdMap K (OrdSet V)) (k k' : K) (s : OrdSet V) :
    values (m.insert k s) k' = if k' = k then s else values m k' := by
  rw [values, OrdMap.find_insert]
  split_ifs <;> rfl

theorem values_erase (m : OrdMap K (OrdSet V)) (k k' : K) :
    values (m.erase k) k' = if k' = k then .empty else values m k' := by
  rw [values, OrdMap.find_erase]
  split_ifs <;> rfl

theorem not_mem_values_empty (k : K) (v : V) : v ∉ values (.empty : OrdMap K (OrdSet V)) k := OrdSet.not_mem_empty v

theorem values_put (m : OrdMap K (OrdSet V)) (k k' : K) (v : V) :
    values (put m k v) k' = if k' = k then (values m k).insert v else values m k' := values_insert m k k' _

theorem values_drop (m : OrdMap K (OrdSet V)) (k k' : K) (v : V) :
    values (drop m k v) k' = if k' = k then (values m k).erase v else values m k' := by
  unfold drop
  cases hfind : m.find k with
  | none =>
    dsimp only
    split_ifs with hk
    · subst hk
      apply OrdSet.ext_mem
      intro w
      simp [values, hfind]
    · rfl
  | some s =>
    have hs : values m k = s := by rw [values, hfind, Option.getD_some]
    dsimp only
    split_ifs with hempty hk hk
    · rw [values_erase, if_pos hk, hs]
      apply OrdSet.ext_mem
      intro w
      exact iff_of_false (OrdSet.not_mem_empty w) ((OrdSet.isEmpty_iff _).1 hempty w)
    · rw [values_erase, if_neg hk]
    · rw [values_insert, if_pos hk, hs]
    · rw [values_insert, if_neg hk]

theorem mem_put (m : OrdMap K (OrdSet V)) (k k' : K) (v v' : V) :
    v' ∈ values (put m k v) k' ↔ (k' = k ∧ v' = v) ∨ v' ∈ values m k' := by
  rw [values_put]
  by_cases hk : k' = k
  · simp [hk]
  · simp [hk]

theorem mem_drop (m : OrdMap K (OrdSet V)) (k k' : K) (v v' : V) :
    v' ∈ values (drop m k v) k' ↔ ¬ (k' = k ∧ v' = v) ∧ v' ∈ values m k' := by
  rw [values_drop]
  by_cases hk : k' = k
  · simp [hk]
  · simp [hk]

/-! ## No empty sets -/

theorem Full.empty : Full (.empty : OrdMap K (OrdSet V)) := fun k s h => by simp at h

theorem Full.put (h : Full m) (k : K) (v : V) : Full (put m k v) := by
  intro k' s hk
  rw [MultiMap.put, OrdMap.find_insert] at hk
  split_ifs at hk
  · obtain rfl := Option.some.inj hk
    exact ⟨v, (OrdSet.mem_insert _ v v).2 (.inl rfl)⟩
  · exact h k' s hk

theorem Full.drop (h : Full m) (k : K) (v : V) : Full (drop m k v) := by
  intro k' s hk
  unfold MultiMap.drop at hk
  cases hfind : m.find k with
  | none =>
    rw [hfind] at hk
    exact h k' s hk
  | some t =>
    rw [hfind] at hk
    dsimp only at hk
    split_ifs at hk with hempty
    · rw [OrdMap.find_erase] at hk
      split_ifs at hk
      exact h k' s hk
    · rw [OrdMap.find_insert] at hk
      split_ifs at hk
      · obtain rfl := Option.some.inj hk
        by_contra hnone
        exact hempty ((OrdSet.isEmpty_iff _).2 fun w hw => hnone ⟨w, hw⟩)
      · exact h k' s hk

theorem Full.find (h : Full m) {k : K} {s : OrdSet V} : m.find k = some s ↔ values m k = s ∧ ∃ v, v ∈ s := by
  constructor
  · intro hk
    exact ⟨by rw [values, hk, Option.getD_some], h k s hk⟩
  · rintro ⟨rfl, v, hv⟩
    cases hk : m.find k with
    | none =>
      rw [values, hk] at hv
      exact absurd hv (OrdSet.not_mem_empty v)
    | some s => rw [values, hk, Option.getD_some]

theorem ext_mem (h : Full m) (h' : Full m') (heq : ∀ k v, v ∈ values m k ↔ v ∈ values m' k) : m = m' := by
  apply OrdMap.ext_find
  intro k
  have hvalues : values m k = values m' k := OrdSet.ext_mem (heq k)
  apply Option.ext
  intro s
  rw [h.find, h'.find, hvalues]

/-! ## Inverse maps -/

variable {n : OrdMap V (OrdSet K)}

theorem Inverse.empty : Inverse (.empty : OrdMap K (OrdSet V)) .empty :=
  fun k v => iff_of_false (not_mem_values_empty k v) (not_mem_values_empty v k)

theorem Inverse.put (h : Inverse m n) (k : K) (v : V) : Inverse (put m k v) (put n v k) := by
  intro k' v'
  rw [mem_put, mem_put, h k' v', and_comm (a := k' = k)]

theorem Inverse.drop (h : Inverse m n) (k : K) (v : V) : Inverse (drop m k v) (drop n v k) := by
  intro k' v'
  rw [mem_drop, mem_drop, h k' v', and_comm (a := k' = k)]

end MultiMap
