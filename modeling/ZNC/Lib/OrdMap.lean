/-
Finite maps and sets in key order, the value semantics of a C++ `std::map` and `std::set`.

A map is its list of entries, strictly increasing in the key; the order is a field, so an unsorted or repeated key
cannot be built. Iteration order is the list's order, so two maps with the same lookups are the same map (`ext_find`).

Results:
- `find_insert`, `find_erase`: the two update laws;
- `ext_find`: a map is determined by its lookups;
- `ofList_entries`: inserting a map's entries one by one, in order, into the empty map rebuilds the map;
- `mem_insert`, `mem_erase`: the update laws of sets (`OrdSet`).
-/
import Mathlib.Data.List.Lex
import Mathlib.Tactic

/-- a finite map: entries in strictly increasing key order -/
structure OrdMap (K V : Type) [LinearOrder K] where
  entries : List (K × V)
  sorted : entries.Pairwise (fun a b => a.1 < b.1)

namespace OrdMap

open List

variable {K V : Type} [LinearOrder K]

instance [DecidableEq V] : DecidableEq (OrdMap K V) := fun a b =>
  decidable_of_iff (a.entries = b.entries) ⟨fun h => by cases a; cases b; cases h; rfl, fun h => h ▸ rfl⟩

/-! ## Operations -/

def empty : OrdMap K V := ⟨[], List.Pairwise.nil⟩

def insertList (k : K) (v : V) : List (K × V) → List (K × V)
  | [] => [(k, v)]
  | e :: l => if k < e.1 then (k, v) :: e :: l else if k = e.1 then (k, v) :: l else e :: insertList k v l

theorem mem_insertList {k : K} {v : V} {e : K × V} {l : List (K × V)} (h : e ∈ insertList k v l) :
    e = (k, v) ∨ e ∈ l := by
  induction l with
  | nil => simpa [insertList] using h
  | cons x l ih =>
    simp only [insertList] at h
    split_ifs at h with h1 h2
    · simpa using h
    · simp only [mem_cons] at h ⊢; tauto
    · simp only [mem_cons] at h ⊢; tauto

variable (m : OrdMap K V) (k k' : K) (v : V)

variable (l : List (K × V))

theorem insertList_sorted (h : l.Pairwise (fun a b => a.1 < b.1)) :
    (insertList k v l).Pairwise (fun a b => a.1 < b.1) := by
  induction l with
  | nil => simp [insertList]
  | cons e l ih =>
    obtain ⟨he, hl⟩ := pairwise_cons.1 h
    simp only [insertList]
    split_ifs with h1 h2
    · refine pairwise_cons.2 ⟨fun x hx => ?_, h⟩
      rcases mem_cons.1 hx with rfl | hx
      · exact h1
      · exact h1.trans (he x hx)
    · subst h2; exact pairwise_cons.2 ⟨he, hl⟩
    · refine pairwise_cons.2 ⟨fun x hx => ?_, ih hl⟩
      rcases mem_insertList hx with rfl | hx
      · exact lt_of_le_of_ne (not_lt.1 h1) (Ne.symm h2)
      · exact he x hx

/-- `m[k] = v` -/
def insert (m : OrdMap K V) (k : K) (v : V) : OrdMap K V := ⟨insertList k v m.entries, insertList_sorted k v _ m.sorted⟩

/-- `m.erase(k)` -/
def erase (m : OrdMap K V) (k : K) : OrdMap K V := ⟨m.entries.filter (fun e => e.1 ≠ k), m.sorted.filter _⟩

def findList (k : K) : List (K × V) → Option V
  | [] => none
  | e :: l => if e.1 = k then some e.2 else findList k l

/-- the entries of which `p` holds -/
def filter (p : K → V → Bool) (m : OrdMap K V) : OrdMap K V :=
  ⟨m.entries.filter (fun e => p e.1 e.2), m.sorted.filter _⟩

/-- `m.find(k)` -/
def find (m : OrdMap K V) (k : K) : Option V := findList k m.entries

def isEmpty (m : OrdMap K V) : Bool := m.entries.isEmpty

def keys (m : OrdMap K V) : List K := m.entries.map Prod.fst

/-- `m[k] = v` for each pair of a list in turn -/
def ofList (l : List (K × V)) : OrdMap K V := l.foldl (fun m e => m.insert e.1 e.2) empty

/-- `m[k] = v`, where `k` is new -/
def insertNew (m : OrdMap K V) (k : K) (v : V) : OrdMap K V := if (m.find k).isSome then m else m.insert k v

/-! ## Lookup laws -/

@[simp] theorem find_empty : (empty : OrdMap K V).find k = none := rfl

theorem findList_insertList :
    findList k' (insertList k v l) = if k' = k then some v else findList k' l := by
  induction l with
  | nil => simp [insertList, findList, eq_comm]
  | cons e l ih =>
    by_cases h1 : k < e.1
    · simp [insertList, h1, findList, eq_comm]
    · by_cases h2 : k = e.1
      · subst h2
        by_cases h3 : e.1 = k'
        · simp [insertList, findList, h3]
        · simp [insertList, findList, h3, Ne.symm h3]
      · rw [insertList, if_neg h1, if_neg h2, findList, ih, findList]
        by_cases h3 : k' = k
        · subst h3; simp [Ne.symm h2]
        · simp [h3]

theorem find_insert :
    (m.insert k v).find k' = if k' = k then some v else m.find k' := findList_insertList k k' v m.entries

theorem findList_filter :
    findList k' (l.filter (fun e => e.1 ≠ k)) = if k' = k then none else findList k' l := by
  induction l with
  | nil => simp [findList]
  | cons e l ih =>
    by_cases he : e.1 = k
    · rw [filter_cons_of_neg (by simp [he]), ih]
      by_cases hk : k' = k
      · simp [hk]
      · have : ¬ e.1 = k' := fun h => hk (h.symm.trans he)
        simp [hk, findList, this]
    · rw [filter_cons_of_pos (by simp [he]), findList, ih]
      by_cases hk : k' = k
      · subst hk; simp [he]
      · simp [hk, findList]

theorem find_erase : (m.erase k).find k' = if k' = k then none else m.find k' :=
  findList_filter k k' m.entries

theorem mem_entries_iff : (k, v) ∈ m.entries ↔ m.find k = some v := by
  obtain ⟨l, hl⟩ := m
  simp only [find]
  induction l with
  | nil => simp [findList]
  | cons e l ih =>
    obtain ⟨he, hl'⟩ := pairwise_cons.1 hl
    rw [mem_cons, findList, ih hl']
    split_ifs with hk
    · subst hk
      have hn : findList e.1 l ≠ some v := fun hf => lt_irrefl _ (he (e.1, v) ((ih hl').2 hf))
      simp only [hn, or_false, Option.some.injEq]
      exact ⟨fun h => by rw [← h], fun h => by rw [← h]⟩
    · have hne : (k, v) ≠ e := fun h => hk (by rw [← h])
      simp [hne]

theorem find_filter (p : K → V → Bool) (m : OrdMap K V) (k : K) : (m.filter p).find k = (m.find k).filter (p k) := by
  apply Option.ext
  intro v
  rw [Option.filter_eq_some_iff, ← mem_entries_iff, ← mem_entries_iff, filter, mem_filter]

theorem find_foldl_insert (f : K → V) (l : List K) (m : OrdMap K V) (k : K) (v : V) :
    (l.foldl (fun m k => m.insert k (f k)) m).find k = some v ↔ (k ∈ l ∧ f k = v) ∨ (k ∉ l ∧ m.find k = some v) := by
  induction l generalizing m with
  | nil => simp
  | cons a l ih =>
    rw [foldl_cons, ih, find_insert]
    by_cases hl : k ∈ l
    · simp [hl]
    · by_cases ha : k = a
      · subst ha
        simp [hl]
      · simp [hl, ha]

/-- **The first entry of which `f` has something.** -/
theorem findSome_entries_iff {β : Type} (f : K × V → Option β) (b : β) :
    m.entries.findSome? f = some b ↔
      ∃ k v, m.find k = some v ∧ f (k, v) = some b ∧ ∀ k' v', m.find k' = some v' → k' < k → f (k', v') = none := by
  simp only [← mem_entries_iff]
  rw [findSome?_eq_some_iff]
  constructor
  · rintro ⟨before, ⟨k, v⟩, later, hentries, hb, hbefore⟩
    refine ⟨k, v, by simp [hentries], hb, fun k' v' hmem hlt => ?_⟩
    have hsorted := m.sorted
    rw [hentries, pairwise_append] at hsorted
    rw [hentries, mem_append, mem_cons] at hmem
    rcases hmem with hmem | heq | hmem
    · exact hbefore _ hmem
    · cases heq
      exact absurd hlt (lt_irrefl k)
    · exact absurd (hlt.trans ((pairwise_cons.1 hsorted.2.1).1 _ hmem)) (lt_irrefl k')
  · rintro ⟨k, v, hmem, hb, hfirst⟩
    obtain ⟨before, later, hentries⟩ := append_of_mem hmem
    refine ⟨before, (k, v), later, hentries, hb, fun e he => ?_⟩
    have hsorted := m.sorted
    rw [hentries, pairwise_append] at hsorted
    exact hfirst e.1 e.2 (by simp [hentries, he]) (hsorted.2.2 e he (k, v) mem_cons_self)

theorem findSome_entries_none_iff {β : Type} (f : K × V → Option β) :
    m.entries.findSome? f = none ↔ ∀ k v, m.find k = some v → f (k, v) = none := by
  simp only [← mem_entries_iff, findSome?_eq_none_iff]
  exact ⟨fun h k v hmem => h (k, v) hmem, fun h e he => h e.1 e.2 he⟩

theorem find_isSome_iff : (m.find k).isSome ↔ k ∈ m.keys := by
  rw [Option.isSome_iff_exists, keys, mem_map]
  constructor
  · rintro ⟨v, hv⟩; exact ⟨(k, v), (m.mem_entries_iff k v).2 hv, rfl⟩
  · rintro ⟨⟨k', v⟩, hm, rfl⟩; exact ⟨v, (m.mem_entries_iff k' v).1 hm⟩

theorem mem_keys_iff : k ∈ m.keys ↔ ∃ v, m.find k = some v := by
  rw [← find_isSome_iff, Option.isSome_iff_exists]

theorem mem_keys_insert : k' ∈ (m.insert k v).keys ↔ k' = k ∨ k' ∈ m.keys := by
  rw [← find_isSome_iff, ← find_isSome_iff, find_insert]
  split_ifs with h <;> simp [h]

theorem mem_keys_erase : k' ∈ (m.erase k).keys ↔ k' ≠ k ∧ k' ∈ m.keys := by
  rw [← find_isSome_iff, ← find_isSome_iff, find_erase]
  split_ifs with h <;> simp [h]

theorem mem_keys_foldl_insert {E : Type} (f : E → K) (g : E → V) (l : List E) (m : OrdMap K V) (k : K) :
    k ∈ (l.foldl (fun m e => m.insert (f e) (g e)) m).keys ↔ k ∈ m.keys ∨ ∃ e ∈ l, f e = k := by
  induction l generalizing m with
  | nil => simp
  | cons e l ih =>
    rw [foldl_cons, ih, mem_keys_insert, exists_mem_cons_iff, eq_comm (a := k), or_comm (b := k ∈ m.keys), or_assoc]

theorem keys_nodup : m.keys.Nodup :=
  pairwise_map.2 (m.sorted.imp fun h => ne_of_lt h)

theorem ext_find {m m' : OrdMap K V} (h : ∀ k, m.find k = m'.find k) : m = m' := by
  have hmem : ∀ e, e ∈ m.entries ↔ e ∈ m'.entries := fun e => by
    rw [show e = (e.1, e.2) from rfl, mem_entries_iff, mem_entries_iff, h]
  have hnd : ∀ m : OrdMap K V, m.entries.Nodup := fun m =>
    m.sorted.imp fun {a b} hab (he : a = b) => absurd (he ▸ hab : a.1 < a.1) (lt_irrefl _)
  have hp : m.entries.Perm m'.entries := (perm_ext_iff_of_nodup (hnd m) (hnd m')).2 hmem
  have he : m.entries = m'.entries :=
    List.Perm.eq_of_pairwise (fun a b _ _ hab hba => absurd hab (not_lt.2 hba.le)) m.sorted m'.sorted hp
  cases m; cases m'; cases he; rfl

theorem isEmpty_iff : m.isEmpty = true ↔ m = empty := by
  obtain ⟨l, hl⟩ := m
  cases l <;> simp [isEmpty, empty]

theorem insert_eq_self_iff : m.insert k v = m ↔ m.find k = some v := by
  constructor
  · intro h
    have hfind := m.find_insert k k v
    rwa [h, if_pos rfl] at hfind
  · intro h
    apply ext_find
    intro k'
    rw [find_insert]
    split_ifs with hk
    · rw [hk, h]
    · rfl

/-! ## Rebuilding a map from its entries -/

theorem insertList_append (h : ∀ e ∈ l, e.1 < k) :
    insertList k v l = l ++ [(k, v)] := by
  induction l with
  | nil => rfl
  | cons e l ih =>
    have he := h e mem_cons_self
    rw [insertList, if_neg he.not_gt, if_neg he.ne', ih fun x hx => h x (mem_cons_of_mem _ hx)]
    rfl

theorem foldl_insert_entries (m : OrdMap K V) (h : (m.entries ++ l).Pairwise (fun a b => a.1 < b.1)) :
    (l.foldl (fun m e => m.insert e.1 e.2) m).entries = m.entries ++ l := by
  induction l generalizing m with
  | nil => simp
  | cons e l ih =>
    have hlt : ∀ x ∈ m.entries, x.1 < e.1 := fun x hx =>
      (pairwise_append.1 h).2.2 x hx e mem_cons_self
    have hins : (m.insert e.1 e.2).entries = m.entries ++ [e] := insertList_append e.1 e.2 m.entries hlt
    rw [foldl_cons, ih, hins, append_assoc, singleton_append]
    rw [hins, append_assoc, singleton_append]
    exact h

theorem ext_entries {m m' : OrdMap K V} (h : m.entries = m'.entries) : m = m' := by
  cases m; cases m'; cases h; rfl

theorem ofList_entries : ofList m.entries = m :=
  ext_entries (foldl_insert_entries m.entries empty (by simpa [empty] using m.sorted))

theorem find_insertNew :
    (m.insertNew k v).find k' = (m.find k').or (if k' = k then some v else none) := by
  rw [insertNew]
  by_cases hk : k' = k
  · subst hk
    cases hfind : m.find k' with
    | none => simp [find_insert]
    | some w => simp [hfind]
  · rw [if_neg hk, Option.or_none]
    split_ifs
    · rfl
    · rw [find_insert, if_neg hk]

/-- **Of the pairs of a list the first with a key counts**, and what was there before counts more. -/
theorem find_foldl_insertNew {E : Type} (f : E → Option (K × V)) (l : List E) (m : OrdMap K V) (k : K) :
    (l.foldl (fun m e => (f e).elim m fun p => m.insertNew p.1 p.2) m).find k =
      (m.find k).or (l.findSome? fun e => (f e).bind fun p => if k = p.1 then some p.2 else none) := by
  induction l generalizing m with
  | nil => exact (Option.or_none).symm
  | cons e l ih =>
    rw [foldl_cons, ih, findSome?_cons]
    cases f e with
    | none => rfl
    | some p =>
      rw [Option.elim_some, find_insertNew, Option.or_assoc, Option.bind_some]
      split_ifs <;> rfl

theorem find_foldl_unless {W : Type} (f : V → W) (p : V → Prop) [DecidablePred p] (m : OrdMap K V) (k : K) (w : W) :
    (m.entries.foldl (fun r e => if p e.2 then r else r.insert e.1 (f e.2)) empty).find k = some w ↔
      ∃ v, m.find k = some v ∧ f v = w ∧ ¬ p v := by
  let l : List (K × W) := (m.entries.filter fun e => ¬ p e.2).map fun e => (e.1, f e.2)
  have hsorted : l.Pairwise (fun a b => a.1 < b.1) := pairwise_map.2 (m.sorted.filter _)
  have hfold : m.entries.foldl (fun r e => if p e.2 then r else r.insert e.1 (f e.2)) empty =
      l.foldl (fun r e => r.insert e.1 e.2) empty := by
    rw [foldl_map, foldl_filter]
    congr 1
    funext r e
    by_cases hp : p e.2
    · simp [hp]
    · simp [hp]
  rw [hfold, ← mem_entries_iff, foldl_insert_entries l empty (by simpa [empty] using hsorted)]
  simp only [empty, nil_append, l, mem_map, mem_filter, decide_eq_true_eq, Prod.mk.injEq]
  constructor
  · rintro ⟨e, ⟨hmem, hp⟩, rfl, rfl⟩
    exact ⟨e.2, (m.mem_entries_iff e.1 e.2).1 hmem, rfl, hp⟩
  · rintro ⟨v, hfind, rfl, hp⟩
    exact ⟨(k, v), ⟨(m.mem_entries_iff k v).2 hfind, hp⟩, rfl, rfl⟩

end OrdMap

/-! ## Sets -/

/-- a finite set: a map to the unit type -/
structure OrdSet (K : Type) [LinearOrder K] where
  map : OrdMap K Unit
deriving DecidableEq

namespace OrdSet

open List

variable {K : Type} [LinearOrder K]

def empty : OrdSet K := ⟨OrdMap.empty⟩

def insert (s : OrdSet K) (k : K) : OrdSet K := ⟨s.map.insert k ()⟩

def erase (s : OrdSet K) (k : K) : OrdSet K := ⟨s.map.erase k⟩

/-- the elements in increasing order; the head is `*s.begin()` -/
def toList (s : OrdSet K) : List K := s.map.keys

def isEmpty (s : OrdSet K) : Bool := s.map.isEmpty

/-- the set of the elements of a list -/
def ofList (l : List K) : OrdSet K := l.foldl insert empty

instance : Membership K (OrdSet K) := ⟨fun s k => k ∈ s.toList⟩

instance (k : K) (s : OrdSet K) : Decidable (k ∈ s) := inferInstanceAs (Decidable (k ∈ s.toList))

variable (s : OrdSet K)

theorem mem_iff_find (k : K) : k ∈ s ↔ (s.map.find k).isSome := (s.map.find_isSome_iff k).symm

@[simp] theorem mem_toList (k : K) : k ∈ s.toList ↔ k ∈ s := Iff.rfl

@[simp] theorem not_mem_empty (k : K) : k ∉ (empty : OrdSet K) := by rw [mem_iff_find]; simp [empty]

@[simp] theorem mem_insert (k k' : K) : k' ∈ s.insert k ↔ k' = k ∨ k' ∈ s := by
  rw [mem_iff_find, mem_iff_find, insert, OrdMap.find_insert]
  split_ifs with h <;> simp [h]

@[simp] theorem mem_erase (k k' : K) : k' ∈ s.erase k ↔ k' ≠ k ∧ k' ∈ s := by
  rw [mem_iff_find, mem_iff_find, erase, OrdMap.find_erase]
  split_ifs with h <;> simp [h]

theorem mem_foldl_insert (l : List K) (s : OrdSet K) (k : K) : k ∈ l.foldl insert s ↔ k ∈ l ∨ k ∈ s := by
  induction l generalizing s with
  | nil => simp
  | cons a l ih => rw [foldl_cons, ih, mem_insert, mem_cons]; tauto

@[simp] theorem mem_ofList (l : List K) (k : K) : k ∈ ofList l ↔ k ∈ l := by
  simp [ofList, mem_foldl_insert]

theorem toList_nodup : s.toList.Nodup := s.map.keys_nodup

theorem isEmpty_iff : s.isEmpty = true ↔ ∀ k, k ∉ s := by
  rw [isEmpty, OrdMap.isEmpty_iff]
  constructor
  · intro h k
    rw [mem_iff_find, h]; simp
  · intro h
    refine OrdMap.ext_find fun k => ?_
    have := h k
    rw [mem_iff_find] at this
    simpa using this

theorem ext_mem {s s' : OrdSet K} (h : ∀ k, k ∈ s ↔ k ∈ s') : s = s' := by
  have hmap : s.map = s'.map := by
    refine OrdMap.ext_find fun k => ?_
    have hk := h k
    rw [mem_iff_find, mem_iff_find] at hk
    cases hs : s.map.find k <;> cases hs' : s'.map.find k <;> simp_all
  cases s
  cases s'
  cases hmap
  rfl

end OrdSet
