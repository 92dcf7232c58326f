/-
Amounts by owner: a list of items, each with an amount and perhaps an owner, and a table with an amount for each owner.

`share k` is what the items of the owner `k` have together, `owned` what all items with an owner have.

Results:
- `sum_share`: the shares of all owners are what is owned;
- `sum_entries`: the values of a table, added up over a list of its keys;
- `find_fill`, `find_foldl_add`, `find_foldl_last`: a table that is filled, to which the items are added one after the other, and in
  which each item replaces the one before.
-/
import ZNC.Lib.OrdMap

namespace Shares

open List

variable {K α M : Type} [AddCommMonoid M]

section Share

variable [DecidableEq K] (key : α → Option K) (amount : α → M)

/-- what the items of an owner have together -/
def share (k : K) (items : List α) : M := ((items.filter fun a => key a = some k).map amount).sum

/-- what the items with an owner have together -/
def owned (items : List α) : M := ((items.filter fun a => (key a).isSome).map amount).sum

theorem share_nil (k : K) : share key amount k [] = 0 := rfl

theorem share_cons (k : K) (a : α) (items : List α) :
    share key amount k (a :: items) = (if key a = some k then amount a else 0) + share key amount k items := by
  rw [share, share, filter_cons]
  by_cases h : key a = some k
  · rw [if_pos (by simpa using h), if_pos h, map_cons, sum_cons]
  · rw [if_neg (by simpa using h), if_neg h, zero_add]

omit [DecidableEq K] in
theorem owned_cons (a : α) (items : List α) :
    owned key amount (a :: items) = (if (key a).isSome then amount a else 0) + owned key amount items := by
  rw [owned, owned, filter_cons]
  split_ifs
  · rw [map_cons, sum_cons]
  · rw [zero_add]

theorem sum_ite_owner {owners : List K} (hnodup : owners.Nodup) {o : Option K} (ho : ∀ k, o = some k → k ∈ owners) (m : M) :
    (owners.map fun k => if o = some k then m else 0).sum = if o.isSome then m else 0 := by
  cases o with
  | none => simp
  | some k =>
    have hmem := ho k rfl
    clear ho
    induction owners with
    | nil => cases hmem
    | cons k' owners ih =>
      obtain ⟨hnew, hnodup⟩ := nodup_cons.1 hnodup
      rw [map_cons, sum_cons]
      by_cases hk : k = k'
      · have hrest : (owners.map fun k'' => if some k = some k'' then m else 0).sum = 0 := by
          refine sum_eq_zero fun x hx => ?_
          obtain ⟨k'', hk'', rfl⟩ := mem_map.1 hx
          refine if_neg fun heq => hnew ?_
          rw [← hk, Option.some.inj heq]
          exact hk''
        rw [hrest, if_pos (congrArg some hk), add_zero]
        rfl
      · rw [if_neg fun heq => hk (Option.some.inj heq), zero_add]
        exact ih hnodup ((mem_cons.1 hmem).resolve_left hk)

theorem sum_share {owners : List K} (hnodup : owners.Nodup) {items : List α}
    (hitems : ∀ a ∈ items, ∀ k, key a = some k → k ∈ owners) :
    (owners.map fun k => share key amount k items).sum = owned key amount items := by
  induction items with
  | nil => simp [share, owned]
  | cons a items ih =>
    obtain ⟨ha, hitems⟩ := forall_mem_cons.1 hitems
    rw [owned_cons, ← ih hitems, ← sum_ite_owner hnodup ha (amount a), ← sum_map_add]
    simp only [share_cons]

end Share

section Table

variable [LinearOrder K]

theorem sum_entries {m : OrdMap K M} {l : List α} {f : α → K} {g : α → M} (hnodup : (l.map f).Nodup)
    (h : ∀ k v, m.find k = some v ↔ ∃ a ∈ l, f a = k ∧ g a = v) : (m.entries.map Prod.snd).sum = (l.map g).sum := by
  have hentries : m.entries.Nodup := List.Nodup.of_map Prod.fst m.keys_nodup
  have hpairs : (l.map fun a => (f a, g a)).Nodup := by
    refine List.Nodup.of_map Prod.fst ?_
    rwa [map_map]
  have hperm : m.entries.Perm (l.map fun a => (f a, g a)) := by
    rw [perm_ext_iff_of_nodup hentries hpairs]
    rintro ⟨k, v⟩
    rw [OrdMap.mem_entries_iff, h, mem_map]
    simp only [Prod.mk.injEq]
  have hsum := (hperm.map Prod.snd).sum_eq
  rwa [map_map] at hsum

omit [AddCommMonoid M] in
theorem find_fill {l : List α} {f : α → K} (g : α → M) (hnodup : (l.map f).Nodup) (m : OrdMap K M) :
    let m' := l.foldl (fun m a => m.insert (f a) (g a)) m
    (∀ a ∈ l, m'.find (f a) = some (g a)) ∧ ∀ k ∉ l.map f, m'.find k = m.find k := by
  induction l generalizing m with
  | nil => exact ⟨fun a ha => absurd ha List.not_mem_nil, fun _ _ => rfl⟩
  | cons a l ih =>
    obtain ⟨hnew, hnodup⟩ := nodup_cons.1 hnodup
    obtain ⟨hfind, hothers⟩ := ih hnodup (m.insert (f a) (g a))
    refine ⟨forall_mem_cons.2 ⟨?_, hfind⟩, fun k hk => ?_⟩
    · rw [foldl_cons, hothers _ hnew, OrdMap.find_insert, if_pos rfl]
    · rw [map_cons, mem_cons, not_or] at hk
      rw [foldl_cons, hothers k hk.2, OrdMap.find_insert, if_neg hk.1]

variable [DecidableEq K]

/-- the items are added to what their owners have -/
def addTo (key : α → Option K) (amount : α → M) (m : OrdMap K M) (a : α) : OrdMap K M :=
  match key a with
  | some k => m.insert k ((m.find k).getD 0 + amount a)
  | none => m

theorem find_addTo (key : α → Option K) (amount : α → M) (m : OrdMap K M) (a : α) (k : K) :
    (addTo key amount m a).find k =
      if key a = some k then some ((m.find k).getD 0 + amount a) else m.find k := by
  rw [addTo]
  cases hkey : key a with
  | none => exact (if_neg fun h => by cases h).symm
  | some k' =>
    rw [OrdMap.find_insert]
    by_cases hk : k = k'
    · rw [if_pos hk, if_pos (congrArg some hk.symm), hk]
    · rw [if_neg hk, if_neg fun h => hk (Option.some.inj h).symm]

/-- **An owner's entry** grows by its share. -/
theorem find_foldl_add (key : α → Option K) (amount : α → M) (items : List α) {m : OrdMap K M} {k : K} {v : M}
    (h : m.find k = some v) : (items.foldl (addTo key amount) m).find k = some (v + share key amount k items) := by
  induction items generalizing m v with
  | nil => rw [foldl_nil, share_nil, add_zero, h]
  | cons a items ih =>
    rw [foldl_cons, share_cons]
    by_cases ha : key a = some k
    · have hstep : (addTo key amount m a).find k = some (v + amount a) := by
        rw [find_addTo, if_pos ha, h, Option.getD_some]
      rw [ih hstep, if_pos ha, add_assoc]
    · have hstep : (addTo key amount m a).find k = some v := by
        rw [find_addTo, if_neg ha, h]
      rw [ih hstep, if_neg ha, zero_add]

theorem isSome_foldl_add (key : α → Option K) (amount : α → M) {items : List α} {m : OrdMap K M}
    (hitems : ∀ a ∈ items, ∀ k, key a = some k → (m.find k).isSome) (k : K) :
    ((items.foldl (addTo key amount) m).find k).isSome = (m.find k).isSome := by
  induction items generalizing m with
  | nil => rfl
  | cons a items ih =>
    obtain ⟨ha, hitems⟩ := forall_mem_cons.1 hitems
    have hstep (k' : K) : ((addTo key amount m a).find k').isSome = (m.find k').isSome := by
      rw [find_addTo]
      split_ifs with hkey
      · rw [ha k' hkey]
        rfl
      · rfl
    rw [foldl_cons, ih fun b hb k' hk' => (hstep k').trans (hitems b hb k' hk')]
    exact hstep k

/-- the items replace what their owners have -/
def assignTo (key : α → Option K) (amount : α → M) (m : OrdMap K M) (a : α) : OrdMap K M :=
  match key a with
  | some k => m.insert k (amount a)
  | none => m

omit [AddCommMonoid M] in
theorem find_foldl_last (key : α → Option K) (amount : α → M) (items : List α) (m : OrdMap K M) (k : K) :
    (items.foldl (assignTo key amount) m).find k =
      (((items.filter fun a => key a = some k).getLast?).map amount).or (m.find k) := by
  induction items using List.reverseRecOn with
  | nil => rfl
  | append_singleton items a ih =>
    rw [foldl_append, foldl_cons, foldl_nil, filter_append, assignTo]
    cases hkey : key a with
    | none =>
      rw [filter_cons_of_neg (by simp [hkey]), filter_nil, append_nil]
      exact ih
    | some k' =>
      rw [OrdMap.find_insert]
      by_cases hk : k = k'
      · rw [if_pos hk, filter_cons_of_pos (by simp [hkey, hk]), filter_nil, getLast?_concat]
        rfl
      · rw [if_neg hk, filter_cons_of_neg (by simp [hkey, Ne.symm hk]), filter_nil, append_nil]
        exact ih

end Table

end Shares
