/-
Paths as texts: pieces between separators, and walking along them from a directory.

A text is its first piece and the pieces that follow a separator each (`pieces`, `flat`). A walk takes the pieces one after the
other: a piece may stay in the directory, go up, or go down to a place of that name (`resolve`).

Results:
- `pieces_spec`, `pieces_append`: a text has exactly one cutting;
- `prefix_iff`: a text followed by a separator begins another one exactly if its pieces begin its pieces;
- `resolve_of_down`, `resolve_down`: what a walk leaves.
-/
import ZNC.Lib.Words

namespace Paths

open Words List

variable {α : Type} {sep : α}

/-! ## Pieces -/

/-- pieces that each follow a separator -/
def flat (sep : α) (ps : List (List α)) : List α := ps.flatMap (sep :: ·)

@[simp] theorem flat_nil : flat sep [] = [] := rfl

@[simp] theorem flat_cons (p : List α) (ps : List (List α)) : flat sep (p :: ps) = sep :: (p ++ flat sep ps) := rfl

@[simp] theorem flat_append (ps qs : List (List α)) : flat sep (ps ++ qs) = flat sep ps ++ flat sep qs :=
  flatMap_append

variable [DecidableEq α]

/-- the first piece, and the others -/
def pieces (sep : α) : List α → List α × List (List α)
  | [] => ([], [])
  | c :: s =>
    let (p, ps) := pieces sep s
    if c = sep then ([], p :: ps) else (c :: p, ps)

theorem pieces_cons_sep (s : List α) : pieces sep (sep :: s) = ([], (pieces sep s).1 :: (pieces sep s).2) := by
  simp only [pieces, if_true]

theorem pieces_cons_of_ne {c : α} (hc : c ≠ sep) (s : List α) :
    pieces sep (c :: s) = (c :: (pieces sep s).1, (pieces sep s).2) := by
  simp only [pieces, if_neg hc]

/-- **A text is put together from its pieces,** and they hold no separator. -/
theorem pieces_spec (s : List α) :
    (pieces sep s).1 ++ flat sep (pieces sep s).2 = s ∧ sep ∉ (pieces sep s).1 ∧ ∀ p ∈ (pieces sep s).2, sep ∉ p := by
  induction s with
  | nil => exact ⟨rfl, not_mem_nil, fun p hp => nomatch hp⟩
  | cons c s ih =>
    obtain ⟨hs, hfirst, hrest⟩ := ih
    by_cases hc : c = sep
    · subst hc
      rw [pieces_cons_sep]
      exact ⟨by simp [hs], not_mem_nil, forall_mem_cons.2 ⟨hfirst, hrest⟩⟩
    · rw [pieces_cons_of_ne hc]
      exact ⟨by simp [hs], not_mem_cons_of_ne_of_not_mem (Ne.symm hc) hfirst, hrest⟩

theorem pieces_of_not_mem {p : List α} (hp : sep ∉ p) : pieces sep p = (p, []) := by
  induction p with
  | nil => rfl
  | cons c p ih =>
    obtain ⟨hc, hp⟩ := not_or.1 (fun h => hp (mem_cons.2 h))
    rw [pieces_cons_of_ne (Ne.symm hc), ih hp]

theorem pieces_append_sep {p : List α} (hp : sep ∉ p) (s : List α) :
    pieces sep (p ++ sep :: s) = (p, (pieces sep s).1 :: (pieces sep s).2) := by
  induction p with
  | nil => exact pieces_cons_sep s
  | cons c p ih =>
    obtain ⟨hc, hp⟩ := not_or.1 (fun h => hp (mem_cons.2 h))
    rw [cons_append, pieces_cons_of_ne (Ne.symm hc), ih hp]

theorem pieces_append {p : List α} {ps : List (List α)} (hp : sep ∉ p) (hps : ∀ q ∈ ps, sep ∉ q) :
    pieces sep (p ++ flat sep ps) = (p, ps) := by
  induction ps generalizing p with
  | nil => rw [flat_nil, append_nil, pieces_of_not_mem hp]
  | cons q ps ih =>
    obtain ⟨hq, hps⟩ := forall_mem_cons.1 hps
    rw [flat_cons, pieces_append_sep hp, ih hq hps]

theorem append_sep_inj {p q s t : List α} (hp : sep ∉ p) (hq : sep ∉ q) (h : p ++ sep :: s = q ++ sep :: t) :
    p = q ∧ s = t := by
  have hcut := cut_append hp s
  rw [h, cut_append hq, Option.some.injEq, Prod.mk.injEq] at hcut
  exact ⟨hcut.1.symm, hcut.2.symm⟩

theorem prefix_iff {p q : List α} {ps qs : List (List α)} (hp : sep ∉ p) (hq : sep ∉ q) (hps : ∀ r ∈ ps, sep ∉ r)
    (hqs : ∀ r ∈ qs, sep ∉ r) :
    p ++ flat sep ps ++ [sep] <+: q ++ flat sep qs ↔ p = q ∧ ps <+: qs ∧ ps.length < qs.length := by
  induction ps generalizing p q qs with
  | nil =>
    rw [flat_nil, append_nil]
    cases qs with
    | nil =>
      refine iff_of_false (fun h => hq ?_) fun h => absurd h.2.2 (lt_irrefl _)
      rw [flat_nil, append_nil] at h
      exact h.subset (mem_append_right _ mem_cons_self)
    | cons r qs =>
      rw [flat_cons]
      constructor
      · rintro ⟨t, ht⟩
        rw [append_assoc, singleton_append] at ht
        exact ⟨(append_sep_inj hp hq ht).1, nil_prefix, Nat.zero_lt_succ _⟩
      · rintro ⟨rfl, -, -⟩
        exact ⟨r ++ flat sep qs, by simp⟩
  | cons a ps ih =>
    obtain ⟨ha, hps⟩ := forall_mem_cons.1 hps
    cases qs with
    | nil =>
      refine iff_of_false (fun h => hq ?_) fun h => absurd h.2.2 (Nat.not_lt_zero _)
      rw [flat_nil, append_nil] at h
      exact h.subset (mem_append_right _ mem_cons_self)
    | cons r qs =>
      obtain ⟨hr, hqs⟩ := forall_mem_cons.1 hqs
      have hih := ih ha hr hps hqs
      rw [flat_cons, flat_cons]
      constructor
      · rintro ⟨t, ht⟩
        have ht' : p ++ sep :: (a ++ flat sep ps ++ [sep] ++ t) = q ++ sep :: (r ++ flat sep qs) := by simpa using ht
        obtain ⟨hpq, hrest⟩ := append_sep_inj hp hq ht'
        obtain ⟨har, hpre, hlen⟩ := hih.1 ⟨t, hrest⟩
        exact ⟨hpq, cons_prefix_cons.2 ⟨har, hpre⟩, Nat.succ_lt_succ hlen⟩
      · rintro ⟨rfl, hpre, hlen⟩
        obtain ⟨rfl, hrest⟩ := cons_prefix_cons.1 hpre
        obtain ⟨t, ht⟩ := hih.2 ⟨rfl, hrest, Nat.lt_of_succ_lt_succ hlen⟩
        refine ⟨t, ?_⟩
        have ht' : p ++ sep :: (a ++ flat sep ps ++ [sep] ++ t) = p ++ sep :: (a ++ flat sep qs) := by rw [ht]
        simpa using ht'

theorem pieces_map {f : α → α} (hf : ∀ c, f c = sep ↔ c = sep) (s : List α) :
    pieces sep (s.map f) = ((pieces sep s).1.map f, (pieces sep s).2.map (List.map f)) := by
  induction s with
  | nil => rfl
  | cons c s ih =>
    by_cases hc : c = sep
    · subst hc
      rw [map_cons, (hf c).2 rfl, pieces_cons_sep, pieces_cons_sep, ih]
      rfl
    · rw [map_cons, pieces_cons_of_ne (fun h => hc ((hf c).1 h)), pieces_cons_of_ne hc, ih]
      rfl

/-! ## Walks -/

/-- what a piece means -/
inductive Turn where
  | stay
  | up
  | down
deriving DecidableEq

section Walks

variable {β : Type} (turn : β → Turn)

/-- one piece of a walk -/
def enter (dir : List β) (p : β) : List β :=
  match turn p with
  | .stay => dir
  | .up => dir.dropLast
  | .down => dir ++ [p]

/-- where a walk from `dir` ends -/
def resolve (dir : List β) (ps : List β) : List β := ps.foldl (enter turn) dir

variable {turn}

theorem resolve_cons (dir : List β) (p : β) (ps : List β) :
    resolve turn dir (p :: ps) = resolve turn (enter turn dir p) ps := rfl

/-- names that only go down are appended -/
theorem resolve_of_down {ps : List β} (h : ∀ p ∈ ps, turn p = .down) (dir : List β) :
    resolve turn dir ps = dir ++ ps := by
  induction ps generalizing dir with
  | nil => rw [append_nil]; rfl
  | cons p ps ih =>
    obtain ⟨hp, hps⟩ := forall_mem_cons.1 h
    rw [resolve_cons, ih hps, enter, hp]
    simp

theorem resolve_filter (dir : List β) (ps : List β) :
    resolve turn dir (ps.filter fun p => turn p ≠ .stay) = resolve turn dir ps := by
  induction ps generalizing dir with
  | nil => rfl
  | cons p ps ih =>
    rw [filter_cons]
    split
    · rw [resolve_cons, resolve_cons, ih]
    · rename_i hstay
      have hp : turn p = .stay := by simpa using hstay
      rw [resolve_cons, enter, hp, ih]

/-- **A walk from a directory of proper names** ends in one. -/
theorem resolve_down {dir : List β} (h : ∀ p ∈ dir, turn p = .down) (ps : List β) :
    ∀ p ∈ resolve turn dir ps, turn p = .down := by
  induction ps generalizing dir with
  | nil => exact h
  | cons p ps ih =>
    rw [resolve_cons]
    refine ih fun q hq => ?_
    unfold enter at hq
    cases hp : turn p with
    | stay =>
      rw [hp] at hq
      exact h q hq
    | up =>
      rw [hp] at hq
      exact h q (mem_of_mem_dropLast hq)
    | down =>
      rw [hp] at hq
      rcases mem_append.1 hq with hq | hq
      · exact h q hq
      · rw [mem_singleton.1 hq, hp]

theorem prefix_resolve {ps : List β} (h : ∀ p ∈ ps, turn p ≠ .up) (dir : List β) : dir <+: resolve turn dir ps := by
  induction ps generalizing dir with
  | nil => exact prefix_rfl
  | cons p ps ih =>
    obtain ⟨hp, hps⟩ := forall_mem_cons.1 h
    rw [resolve_cons]
    have hstep : dir <+: enter turn dir p := by
      unfold enter
      cases hturn : turn p with
      | stay => exact prefix_rfl
      | up => exact absurd hturn hp
      | down => exact prefix_append dir [p]
    exact hstep.trans (ih hps _)

theorem mem_resolve {dir ps : List β} {p : β} (h : p ∈ resolve turn dir ps) : p ∈ dir ∨ p ∈ ps := by
  induction ps generalizing dir with
  | nil => exact .inl h
  | cons q ps ih =>
    rcases ih h with hp | hp
    · unfold enter at hp
      cases hq : turn q with
      | stay =>
        rw [hq] at hp
        exact .inl hp
      | up =>
        rw [hq] at hp
        exact .inl (mem_of_mem_dropLast hp)
      | down =>
        rw [hq] at hp
        rcases mem_append.1 hp with hp | hp
        · exact .inl hp
        · exact .inr (mem_cons.2 (.inl (mem_singleton.1 hp)))
    · exact .inr (mem_cons_of_mem _ hp)

end Walks

end Paths
