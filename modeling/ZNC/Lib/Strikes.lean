/-
Targets that strike items off a list, one after the other.

A target names items of the list as it was at the start (`names`), but strikes one that it picks from what is left
(`pick`). When all targets name and pick the same, the order does not matter; a target that picks by the place in the
list does not.

Results:
- `run_iff`: after each target the items named so far are gone, and no others, exactly if each target picks what it
  names of the items that no target before it names;
- `run_once_iff`: for targets that name one item at most, and none twice, it is enough to look at the end of the run,
  where no target picks an item that stands in front of the one it names.
-/
import Mathlib.Tactic
import Mathlib.Data.List.NodupEquivFin

namespace Strikes

open List

variable {α τ : Type} [DecidableEq α]

/-- one target -/
def strike (pick : τ → List α → Option α) (l : List α) (t : τ) : List α :=
  match pick t l with
  | some a => l.filter (· ≠ a)
  | none => l

/-- what no target names -/
def unnamed (names : τ → List α) (L : List α) (ts : List τ) : List α := L.filter fun a => a ∉ ts.flatMap names

/-- of these items the target picks what it names -/
def Fits (names : τ → List α) (pick : τ → List α → Option α) (l : List α) (t : τ) : Prop :=
  ∀ a ∈ l, pick t l = some a ↔ a ∈ names t

variable {names : τ → List α} {pick : τ → List α → Option α}

theorem strike_sublist (l : List α) (t : τ) : (strike pick l t).Sublist l := by
  unfold strike
  cases pick t l with
  | none => exact List.Sublist.refl l
  | some a => exact filter_sublist

theorem foldl_strike_sublist (pick : τ → List α → Option α) (ts : List τ) (l : List α) : (ts.foldl (strike pick) l).Sublist l := by
  induction ts generalizing l with
  | nil => exact List.Sublist.refl l
  | cons t ts ih => exact (ih _).trans (strike_sublist l t)

theorem mem_unnamed {L : List α} {ts : List τ} {a : α} : a ∈ unnamed names L ts ↔ a ∈ L ∧ a ∉ ts.flatMap names := by
  rw [unnamed, mem_filter, decide_eq_true_eq]

theorem unnamed_append (L : List α) (ts : List τ) (t : τ) :
    unnamed names L (ts ++ [t]) = (unnamed names L ts).filter fun a => a ∉ names t := by
  unfold unnamed
  rw [filter_filter]
  refine filter_congr fun a _ => ?_
  rw [← Bool.decide_and, decide_eq_decide, flatMap_append, mem_append, not_or, and_comm, flatMap_singleton]

/-- **One target** strikes what it names exactly if it picks that. -/
theorem strike_iff (l : List α) (t : τ) : strike pick l t = l.filter (fun a => a ∉ names t) ↔ Fits names pick l t := by
  have hmem : ∀ a ∈ l, a ∈ strike pick l t ↔ pick t l ≠ some a := by
    intro a ha
    unfold strike
    cases pick t l with
    | none => exact iff_of_true ha (Option.some_ne_none a).symm
    | some b =>
      simp only [mem_filter, ha, true_and, decide_eq_true_eq, ne_eq, Option.some.injEq]
      exact not_congr eq_comm
  refine ⟨fun h a ha => ?_, fun h => ?_⟩
  · have hleft := hmem a ha
    rw [h, mem_filter, decide_eq_true_eq] at hleft
    have hnot : a ∉ names t ↔ pick t l ≠ some a := by simpa [ha] using hleft
    exact (not_iff_not.1 hnot).symm
  · have hall : ∀ a ∈ l, (pick t l ≠ some a) ↔ a ∉ names t := fun a ha => not_congr (h a ha)
    have hfilter : strike pick l t = l.filter fun a => pick t l ≠ some a := by
      unfold strike
      cases pick t l with
      | none => exact (filter_eq_self.2 fun a _ => decide_eq_true (Option.some_ne_none a).symm).symm
      | some b =>
        refine filter_congr fun a _ => decide_eq_decide.2 ?_
        rw [ne_eq, ne_eq, Option.some.injEq]
        exact not_congr eq_comm
    rw [hfilter]
    exact filter_congr fun a ha => decide_eq_decide.2 (hall a ha)

theorem run_iff (L : List α) (ts : List τ) :
    (∀ n, (ts.take n).foldl (strike pick) L = unnamed names L (ts.take n)) ↔
      ∀ i (h : i < ts.length), Fits names pick (unnamed names L (ts.take i)) ts[i] := by
  have hnext : ∀ i (h : i < ts.length), (ts.take i).foldl (strike pick) L = unnamed names L (ts.take i) →
      ((ts.take (i + 1)).foldl (strike pick) L = unnamed names L (ts.take (i + 1)) ↔
        Fits names pick (unnamed names L (ts.take i)) ts[i]) := by
    intro i h hi
    rw [take_succ_eq_append_getElem h, foldl_append, hi, unnamed_append]
    exact strike_iff _ _
  refine ⟨fun hall i h => (hnext i h (hall i)).1 (hall (i + 1)), fun hfits n => ?_⟩
  induction n with
  | zero => simp [unnamed]
  | succ n ih =>
    by_cases hn : n < ts.length
    · exact (hnext n hn ih).2 (hfits n hn)
    · rw [take_of_length_le (by omega)] at ih
      rw [take_of_length_le (by omega)]
      exact ih

/-! ## Items that are named once -/

/-- a target picks what is there, and nothing in front of what it names -/
structure Behind (L : List α) (names : τ → List α) (pick : τ → List α → Option α) : Prop where
  mem : ∀ t l a, pick t l = some a → a ∈ l
  behind : ∀ t l a, l.Sublist L → pick t l = some a → ∃ b ∈ names t, L.idxOf b ≤ L.idxOf a
  inside : ∀ t, ∀ b ∈ names t, b ∈ L

variable {L : List α}

theorem idxOf_getElem_le {l : List α} (hL : L.Nodup) (hl : l.Sublist L) {i : ℕ} {a : α} (ha : l[i]? = some a) :
    ∃ h : i < L.length, L.idxOf L[i] ≤ L.idxOf a := by
  obtain ⟨f, hf⟩ := sublist_iff_exists_orderEmbedding_getElem?_eq.1 hl
  have hat : L[f i]? = some a := (hf i).symm.trans ha
  obtain ⟨hlt, hget⟩ := List.getElem?_eq_some_iff.1 hat
  have hle : i ≤ f i := f.strictMono.le_apply
  refine ⟨hle.trans_lt hlt, ?_⟩
  rw [← hget, hL.idxOf_getElem, hL.idxOf_getElem]
  exact hle

/-- a filter leaves an item at its place exactly if it keeps all items up to it -/
theorem getElem?_filter_iff {p : α → Bool} (hL : L.Nodup) {u : ℕ} {a : α} (ha : L[u]? = some a) :
    (L.filter p)[u]? = some a ↔ ∀ b ∈ L.take (u + 1), p b = true := by
  induction L generalizing u with
  | nil => cases ha
  | cons x L ih =>
    obtain ⟨hx, hL'⟩ := nodup_cons.1 hL
    rw [take_succ_cons, forall_mem_cons]
    cases hp : p x with
    | true =>
      rw [filter_cons_of_pos hp]
      cases u with
      | zero => exact iff_of_true ha ⟨rfl, fun b hb => nomatch hb⟩
      | succ v => exact (ih hL' ha).trans ⟨fun h => ⟨rfl, h⟩, fun h => h.2⟩
    | false =>
      rw [filter_cons_of_neg (by rw [hp]; exact Bool.false_ne_true)]
      refine iff_of_false (fun h => ?_) fun h => Bool.false_ne_true h.1
      cases u with
      | zero =>
        obtain rfl : x = a := Option.some.inj ha
        exact hx (mem_filter.1 (mem_of_getElem? h)).1
      | succ v =>
        -- behind an item that is gone, an item stands before its old place
        obtain ⟨hlt, hle⟩ := idxOf_getElem_le hL' filter_sublist h
        obtain ⟨hv, hget⟩ := List.getElem?_eq_some_iff.1 ha
        have hat : L.idxOf a = v := by
          rw [← hget, getElem_cons_succ, hL'.idxOf_getElem]
        rw [hL'.idxOf_getElem, hat] at hle
        omega

theorem getElem?_unnamed_iff (hL : L.Nodup) {ts : List τ} {u : ℕ} {a : α} (ha : L[u]? = some a) :
    (unnamed names L ts)[u]? = some a ↔ ∀ b ∈ L.take (u + 1), b ∉ ts.flatMap names :=
  (getElem?_filter_iff hL ha).trans (forall₂_congr fun _ _ => decide_eq_true_iff)

omit [DecidableEq α] in
/-- the places of these items, added up -/
def places (L l : List α) : ℕ := (l.map L.idxOf).sum

theorem places_append (L l l' : List α) : places L (l ++ l') = places L l + places L l' := by
  simp [places]

theorem strike_single {l : List α} (h : Behind L names pick) (hL : L.Nodup) (hl : l.Sublist L) {t : τ}
    (hone : (names t).length ≤ 1) : l.length ≤ (strike pick l t).length + (names t).length ∧
      (l.length = (strike pick l t).length + (names t).length →
        places L (strike pick l t) + places L (names t) ≤ places L l ∧
          (places L (strike pick l t) + places L (names t) = places L l → (pick t l).toList = names t)) := by
  cases hp : pick t l with
  | none =>
    have hsame : strike pick l t = l := by rw [strike, hp]
    rw [hsame]
    refine ⟨Nat.le_add_right _ _, fun hlen => ?_⟩
    have hnone : names t = [] := length_eq_zero_iff.1 (by omega)
    rw [hnone]
    exact ⟨le_refl _, fun _ => rfl⟩
  | some a =>
    have ha := h.mem t l a hp
    obtain ⟨b, hb, hle⟩ := h.behind t l a hl hp
    have hname : names t = [b] := by
      obtain ⟨c, hc⟩ := length_eq_one_iff.1 (le_antisymm hone (length_pos_of_mem hb))
      rw [hc] at hb ⊢
      rw [mem_singleton.1 hb]
    have herase : strike pick l t = l.erase a := by
      rw [(hl.nodup hL).erase_eq_filter, strike, hp]
      exact filter_congr fun x _ => by simp [bne, Bool.beq_eq_decide_eq]
    have hperm : l.Perm (a :: strike pick l t) := herase ▸ perm_cons_erase ha
    have hsum : places L l = L.idxOf a + places L (strike pick l t) := by
      rw [places, (hperm.map L.idxOf).sum_eq, map_cons, sum_cons, places]
    have hb' : places L [b] = L.idxOf b := by simp [places]
    rw [hname, hb', hsum]
    refine ⟨by simpa using hperm.length_eq.le, fun _ => ⟨by omega, fun heq => ?_⟩⟩
    have hidx : L.idxOf b = L.idxOf a := by omega
    have hbL : b ∈ L := h.inside t b (hname ▸ mem_singleton_self b)
    rw [(idxOf_inj hbL).1 hidx]
    rfl

/-- **The whole run** counts the same way. -/
theorem run_single (h : Behind L names pick) (hL : L.Nodup) (ts : List τ) (hone : ∀ t ∈ ts, (names t).length ≤ 1)
    {l : List α} (hl : l.Sublist L) :
    l.length ≤ (ts.foldl (strike pick) l).length + (ts.flatMap names).length ∧
      (l.length = (ts.foldl (strike pick) l).length + (ts.flatMap names).length →
        places L (ts.foldl (strike pick) l) + places L (ts.flatMap names) ≤ places L l ∧
          (places L (ts.foldl (strike pick) l) + places L (ts.flatMap names) = places L l →
            ∀ i (hi : i < ts.length), (pick ts[i] ((ts.take i).foldl (strike pick) l)).toList = names ts[i])) := by
  induction ts generalizing l with
  | nil => simp [places]
  | cons t ts ih =>
    obtain ⟨hlen, hrest⟩ := strike_single h hL hl (hone t mem_cons_self)
    have hsub : (strike pick l t).Sublist L := (strike_sublist l t).trans hl
    obtain ⟨hlen', hrest'⟩ := ih (fun u hu => hone u (mem_cons_of_mem t hu)) hsub
    rw [foldl_cons, flatMap_cons, length_append, places_append]
    refine ⟨by omega, fun heq => ?_⟩
    obtain ⟨hle, hpick⟩ := hrest (by omega)
    obtain ⟨hle', hpick'⟩ := hrest' (by omega)
    refine ⟨by omega, fun hsum i hi => ?_⟩
    cases i with
    | zero => exact hpick (by omega)
    | succ i => exact hpick' (by omega) i (by simpa using hi)

theorem run_once_iff (h : Behind L names pick) (hL : L.Nodup) (ts : List τ) (hone : ∀ t ∈ ts, (names t).length ≤ 1)
    (honce : (ts.flatMap names).Nodup) :
    ts.foldl (strike pick) L = unnamed names L ts ↔
      ∀ i (hi : i < ts.length), Fits names pick (unnamed names L (ts.take i)) ts[i] := by
  refine ⟨fun hend => ?_, fun hfits => ?_⟩
  · have hperm : L.Perm (unnamed names L ts ++ ts.flatMap names) := by
      have hsplit := filter_append_perm (fun a => decide (a ∉ ts.flatMap names)) L
      refine hsplit.symm.trans (List.Perm.append_left _ ?_)
      refine (perm_ext_iff_of_nodup (hL.filter _) honce).2 fun a => ?_
      rw [mem_filter]
      simp only [decide_not, Bool.not_not, decide_eq_true_eq]
      refine ⟨fun ha => ha.2, fun ha => ⟨?_, ha⟩⟩
      obtain ⟨t, -, hat⟩ := mem_flatMap.1 ha
      exact h.inside t a hat
    have hsum : places L L = places L (unnamed names L ts) + places L (ts.flatMap names) := by
      rw [← places_append]
      exact (hperm.map L.idxOf).sum_eq
    have hlen : L.length = (unnamed names L ts).length + (ts.flatMap names).length := by
      rw [← length_append]
      exact hperm.length_eq
    rw [← hend] at hsum hlen
    have hpicks := ((run_single h hL ts hone (List.Sublist.refl L)).2 hlen).2 hsum.symm
    -- each target picked what it names, so what was left before it is what was unnamed
    have hstep : ∀ n, (ts.take n).foldl (strike pick) L = unnamed names L (ts.take n) := by
      intro n
      induction n with
      | zero => simp [unnamed]
      | succ n ih =>
        by_cases hn : n < ts.length
        · rw [take_succ_eq_append_getElem hn, foldl_append, unnamed_append, foldl_cons, foldl_nil, ← ih, strike_iff]
          intro a _
          rw [← hpicks n hn, Option.mem_toList]
        · rw [take_of_length_le (by omega)] at ih
          rw [take_of_length_le (by omega)]
          exact ih
    exact (run_iff L ts).1 hstep
  · have hall := (run_iff L ts).2 hfits ts.length
    rwa [take_length] at hall

end Strikes
