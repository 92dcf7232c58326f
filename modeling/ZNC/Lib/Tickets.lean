/-
Numbered tickets, each of which may be used once: the pending challenges of an authentication, invitations, one-time codes.

A book has for each holder the ticket that is pending, if any. Tickets are numbered as they are issued; they can be handed over,
be dropped, and be used.

Results:
- `Sound.issue`, `Sound.hand`, `Sound.drop`, `Sound.expire`, `Sound.use`: every operation keeps the book sound;
- `Sound.once`: in a sound book no ticket was used twice;
- `pending_issueAll`: what is pending when tickets were issued to a list of holders.
-/
import Mathlib.Tactic

structure Tickets (K V : Type) where
  /-- the number of the ticket of a holder, and what is on it -/
  pending : K → Option (ℕ × V)
  issued : ℕ
  used : List ℕ

namespace Tickets

open Function

variable {K V : Type} [DecidableEq K]

def empty : Tickets K V := ⟨fun _ => none, 0, []⟩

/-- a new ticket, in the place of the one before -/
def issue (b : Tickets K V) (k : K) (v : V) : Tickets K V :=
  { b with pending := update b.pending k (some (b.issued, v)), issued := b.issued + 1 }

/-- the ticket of `k`, if there is one, goes to `k'` -/
def hand (b : Tickets K V) (k k' : K) : Tickets K V :=
  match b.pending k with
  | none => b
  | some t => { b with pending := update (update b.pending k none) k' (some t) }

def drop (b : Tickets K V) (k : K) : Tickets K V := { b with pending := update b.pending k none }

/-- all tickets are dropped -/
def expire (b : Tickets K V) : Tickets K V := { b with pending := fun _ => none }

/-- the ticket of `k`, if there is one, is used -/
def use (b : Tickets K V) (k : K) : Tickets K V :=
  match b.pending k with
  | none => b
  | some t => { b.drop k with used := t.1 :: b.used }

/-- the tickets that are pending have different numbers, none of which was used -/
structure Sound (b : Tickets K V) : Prop where
  known : ∀ k t, b.pending k = some t → t.1 < b.issued ∧ t.1 ∉ b.used
  apart : ∀ k k' t t', b.pending k = some t → b.pending k' = some t' → t.1 = t'.1 → k = k'
  past : ∀ n ∈ b.used, n < b.issued
  once : b.used.Nodup

omit [DecidableEq K] in
theorem sound_empty : Sound (empty : Tickets K V) where
  known := fun _ _ h => by cases h
  apart := fun _ _ _ _ h => by cases h
  past := fun _ h => nomatch h
  once := List.nodup_nil

variable {b : Tickets K V}

omit [DecidableEq K] in
theorem Sound.mono (h : Sound b) {pending : K → Option (ℕ × V)}
    (hsub : ∀ k t, pending k = some t → b.pending k = some t) :
    Sound { b with pending := pending } where
  known := fun k t ht => h.known k t (hsub k t ht)
  apart := fun k k' t t' ht ht' => h.apart k k' t t' (hsub k t ht) (hsub k' t' ht')
  past := h.past
  once := h.once

omit [DecidableEq K] in
theorem Sound.expire (h : Sound b) : Sound b.expire := h.mono fun _ _ ht => by cases ht

theorem Sound.drop (h : Sound b) (k : K) : Sound (b.drop k) := by
  refine h.mono fun k' t ht => ?_
  rw [update_apply] at ht
  split_ifs at ht
  exact ht

theorem Sound.issue (h : Sound b) (k : K) (v : V) : Sound (b.issue k v) := by
  have hnew : ∀ k' t, (b.issue k v).pending k' = some t →
      (k' = k ∧ t = (b.issued, v)) ∨ (k' ≠ k ∧ b.pending k' = some t) := by
    intro k' t ht
    simp only [Tickets.issue, update_apply] at ht
    split_ifs at ht with hk
    · exact .inl ⟨hk, (Option.some.inj ht).symm⟩
    · exact .inr ⟨hk, ht⟩
  constructor
  · intro k' t ht
    rcases hnew k' t ht with ⟨-, rfl⟩ | ⟨-, ht⟩
    · exact ⟨Nat.lt_succ_self _, fun hmem => Nat.lt_irrefl _ (h.past _ hmem)⟩
    · exact ⟨Nat.lt_succ_of_lt (h.known k' t ht).1, (h.known k' t ht).2⟩
  · intro k1 k2 t1 t2 ht1 ht2 heq
    rcases hnew k1 t1 ht1 with ⟨rfl, rfl⟩ | ⟨-, ht1⟩
    · rcases hnew k2 t2 ht2 with ⟨rfl, -⟩ | ⟨-, ht2⟩
      · rfl
      · exact absurd heq.symm (Nat.ne_of_lt (h.known k2 t2 ht2).1)
    · rcases hnew k2 t2 ht2 with ⟨-, rfl⟩ | ⟨-, ht2⟩
      · exact absurd heq (Nat.ne_of_lt (h.known k1 t1 ht1).1)
      · exact h.apart k1 k2 t1 t2 ht1 ht2 heq
  · exact fun n hn => Nat.lt_succ_of_lt (h.past n hn)
  · exact h.once

theorem Sound.hand (h : Sound b) (k k' : K) : Sound (b.hand k k') := by
  rw [Tickets.hand]
  cases hk : b.pending k with
  | none => exact h
  | some t =>
    -- every ticket had one holder
    have hold : ∀ j u, update (update b.pending k none) k' (some t) j = some u →
        (j = k' ∧ u = t) ∨ (j ≠ k' ∧ j ≠ k ∧ b.pending j = some u) := by
      intro j u hu
      rw [update_apply] at hu
      split_ifs at hu with hj
      · exact .inl ⟨hj, (Option.some.inj hu).symm⟩
      · rw [update_apply] at hu
        split_ifs at hu with hj'
        exact .inr ⟨hj, hj', hu⟩
    constructor
    · intro j u hu
      rcases hold j u hu with ⟨-, rfl⟩ | ⟨-, -, hu⟩
      · exact h.known k u hk
      · exact h.known j u hu
    · intro j1 j2 u1 u2 hu1 hu2 heq
      rcases hold j1 u1 hu1 with ⟨rfl, rfl⟩ | ⟨-, hj1, hp1⟩
      · rcases hold j2 u2 hu2 with ⟨rfl, -⟩ | ⟨-, hj2, hp2⟩
        · rfl
        · exact absurd (h.apart k j2 u1 u2 hk hp2 heq).symm hj2
      · rcases hold j2 u2 hu2 with ⟨rfl, rfl⟩ | ⟨-, -, hp2⟩
        · exact absurd (h.apart j1 k u1 u2 hp1 hk heq) hj1
        · exact h.apart j1 j2 u1 u2 hp1 hp2 heq
    · exact h.past
    · exact h.once

theorem Sound.use (h : Sound b) (k : K) : Sound (b.use k) := by
  rw [Tickets.use]
  cases hk : b.pending k with
  | none => exact h
  | some t =>
    have hother : ∀ j u, (b.drop k).pending j = some u → j ≠ k ∧ b.pending j = some u := by
      intro j u hu
      simp only [Tickets.drop, update_apply] at hu
      split_ifs at hu with hj
      exact ⟨hj, hu⟩
    constructor
    · intro j u hu
      obtain ⟨hj, hu⟩ := hother j u hu
      refine ⟨(h.known j u hu).1, fun hmem => ?_⟩
      rcases List.mem_cons.1 hmem with heq | hmem
      · exact hj (h.apart j k u t hu hk heq)
      · exact (h.known j u hu).2 hmem
    · exact fun j1 j2 u1 u2 hu1 hu2 => h.apart j1 j2 u1 u2 (hother j1 u1 hu1).2 (hother j2 u2 hu2).2
    · intro n hn
      rcases List.mem_cons.1 hn with rfl | hn
      · exact (h.known k t hk).1
      · exact h.past n hn
    · exact List.nodup_cons.2 ⟨(h.known k t hk).2, h.once⟩

/-! ## What is pending -/

theorem pending_drop (b : Tickets K V) (k k' : K) : (b.drop k).pending k' = if k' = k then none else b.pending k' :=
  update_apply ..

theorem pending_use (b : Tickets K V) (k k' : K) : (b.use k).pending k' = if k' = k then none else b.pending k' := by
  rw [use]
  cases hk : b.pending k with
  | none =>
    split_ifs with h
    · exact (congrArg b.pending h).trans hk
    · rfl
  | some t => exact pending_drop b k k'

theorem pending_hand (b : Tickets K V) (k k' j : K) : (b.hand k k').pending j =
    if (b.pending k).isSome then if j = k' then b.pending k else if j = k then none else b.pending j else b.pending j := by
  rw [hand]
  cases hk : b.pending k with
  | none => rfl
  | some t =>
    simp only [Option.isSome_some, if_true, update_apply]

/-! ## Many tickets at once -/

theorem Sound.issueAll (h : Sound b) (l : List (K × V)) : Sound (l.foldl (fun b e => b.issue e.1 e.2) b) := by
  induction l generalizing b with
  | nil => exact h
  | cons e l ih => exact ih (h.issue e.1 e.2)

theorem pending_issueAll (l : List (K × V)) (hl : (l.map Prod.fst).Nodup) (b : Tickets K V) (k : K) (v : V) :
    (∃ i, (l.foldl (fun b e => b.issue e.1 e.2) b).pending k = some (i, v)) ↔
      (k, v) ∈ l ∨ (k ∉ l.map Prod.fst ∧ ∃ i, b.pending k = some (i, v)) := by
  induction l generalizing b with
  | nil => simp
  | cons e l ih =>
    obtain ⟨hhead, hl⟩ := List.nodup_cons.1 hl
    rw [List.foldl_cons, ih hl, List.mem_cons, List.map_cons, List.mem_cons]
    by_cases hk : k = e.1
    · have hnot : (k, v) ∉ l := fun hmem => hhead (hk ▸ List.mem_map_of_mem (f := Prod.fst) hmem)
      have hpending : (b.issue e.1 e.2).pending k = some (b.issued, e.2) := by
        rw [hk]
        exact update_self ..
      have hnew : (∃ i, (b.issue e.1 e.2).pending k = some (i, v)) ↔ (k, v) = e := by
        rw [hpending]
        constructor
        · rintro ⟨i, hi⟩
          exact Prod.ext hk (congrArg Prod.snd (Option.some.inj hi)).symm
        · rintro rfl
          exact ⟨b.issued, rfl⟩
      rw [hnew]
      have hout : k ∉ l.map Prod.fst := hk ▸ hhead
      tauto
    · have hpending : (b.issue e.1 e.2).pending k = b.pending k := update_of_ne hk ..
      have hne : (k, v) ≠ e := fun h => hk (congrArg Prod.fst h)
      rw [hpending]
      simp [hk, hne]

end Tickets
