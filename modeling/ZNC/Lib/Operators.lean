/-
Truth values joined by two operators, read in two ways.

With precedence the operands joined by `and` form a group, and one group that is true makes the whole true. Without it, the operators
bind alike and to the right: an operand decides as soon as its own operator allows.

Results:
- `nested_iff`: what the reading without precedence finds in the groups;
- `reached_iff_holds_iff`: when the two readings agree.
-/
import Mathlib.Tactic

namespace Operators

open List

inductive Op where
  | and
  | or
deriving DecidableEq, Repr

/-- the operators bind alike and to the right -/
def nested : Bool → List (Op × Bool) → Bool
  | b, [] => b
  | b, (.and, c) :: rest => b && nested c rest
  | b, (.or, c) :: rest => b || nested c rest

/-- the operands between one `or` and the next -/
def groups {α : Type} : α → List (Op × α) → List (List α)
  | a, [] => [[a]]
  | a, (.and, c) :: rest => (groups c rest).modifyHead (a :: ·)
  | a, (.or, c) :: rest => [a] :: groups c rest

/-- `and` binds tighter than `or` -/
def Holds (gs : List (List Bool)) : Prop := ∃ g ∈ gs, ∀ b ∈ g, b = true

/-- a group is true, and in each group before it only the last operand may be false -/
def Reached (gs : List (List Bool)) : Prop :=
  ∃ before g after, gs = before ++ g :: after ∧ (∀ b ∈ g, b = true) ∧ ∀ h ∈ before, ∀ b ∈ h.dropLast, b = true

instance instDecidableHolds (gs : List (List Bool)) : Decidable (Holds gs) :=
  inferInstanceAs (Decidable (∃ g ∈ gs, ∀ b ∈ g, b = true))

theorem groups_cons {α : Type} (a : α) (rest : List (Op × α)) : ∃ g gs, groups a rest = g :: gs ∧ g ≠ [] := by
  induction rest generalizing a with
  | nil => exact ⟨[a], [], rfl, cons_ne_nil _ _⟩
  | cons p rest ih =>
    obtain ⟨op, c⟩ := p
    obtain ⟨g, gs, hgs, -⟩ := ih c
    cases op with
    | and => exact ⟨a :: g, gs, by rw [groups, hgs, modifyHead_cons], cons_ne_nil _ _⟩
    | or => exact ⟨[a], groups c rest, rfl, cons_ne_nil _ _⟩

theorem reached_single (g : List Bool) : Reached [g] ↔ ∀ b ∈ g, b = true := by
  constructor
  · rintro ⟨before, h, after, heq, hh, -⟩
    cases before with
    | nil =>
      obtain ⟨rfl, -⟩ := List.cons.inj heq
      exact hh
    | cons x before => exact absurd (List.cons.inj heq).2 (by simp)
  · exact fun hg => ⟨[], g, [], rfl, hg, fun h hh => nomatch hh⟩

theorem reached_cons {g : List Bool} {gs : List (List Bool)} :
    Reached (g :: gs) ↔ (∀ b ∈ g, b = true) ∨ (∀ b ∈ g.dropLast, b = true) ∧ Reached gs := by
  constructor
  · rintro ⟨before, h, after, heq, hh, hbefore⟩
    cases before with
    | nil =>
      obtain ⟨rfl, -⟩ := List.cons.inj heq
      exact .inl hh
    | cons x before =>
      obtain ⟨rfl, rfl⟩ := List.cons.inj heq
      exact .inr ⟨hbefore _ mem_cons_self, before, h, after, rfl, hh, fun y hy => hbefore y (mem_cons_of_mem _ hy)⟩
  · rintro (hg | ⟨hg, before, h, after, rfl, hh, hbefore⟩)
    · exact ⟨[], g, gs, rfl, hg, fun h hh => nomatch hh⟩
    · exact ⟨g :: before, h, after, rfl, hh, forall_mem_cons.2 ⟨hg, hbefore⟩⟩

/-- **Without precedence** a group is found only if no operand before decides otherwise. -/
theorem nested_iff (b : Bool) (rest : List (Op × Bool)) : nested b rest = true ↔ Reached (groups b rest) := by
  induction rest generalizing b with
  | nil => rw [nested, groups, reached_single, forall_mem_singleton]
  | cons p rest ih =>
    obtain ⟨op, c⟩ := p
    cases op with
    | and =>
      obtain ⟨g, gs, hgs, hne⟩ := groups_cons c rest
      have hih := ih c
      rw [hgs, reached_cons] at hih
      rw [nested, groups, Bool.and_eq_true, hih, hgs, modifyHead_cons, reached_cons, dropLast_cons_of_ne_nil hne,
      forall_mem_cons, forall_mem_cons]
      tauto
    | or =>
      rw [nested, groups, Bool.or_eq_true, ih, reached_cons, forall_mem_singleton]
      simp

theorem Reached.holds {gs : List (List Bool)} (h : Reached gs) : Holds gs := by
  obtain ⟨before, g, after, rfl, hg, -⟩ := h
  exact ⟨g, mem_append_right _ mem_cons_self, hg⟩

theorem Holds.first {gs : List (List Bool)} (h : Holds gs) : ∃ before g after, gs = before ++ g :: after ∧ (∀ b ∈ g, b = true) ∧
    ¬Holds before := by
  induction gs with
  | nil =>
    obtain ⟨g, hg, -⟩ := h
    exact nomatch hg
  | cons x gs ih =>
    by_cases hx : ∀ b ∈ x, b = true
    · exact ⟨[], x, gs, rfl, hx, fun ⟨g, hg, _⟩ => nomatch hg⟩
    · have hgs : Holds gs := by
        obtain ⟨g, hg, hall⟩ := h
        rcases mem_cons.1 hg with rfl | hg
        · exact absurd hall hx
        · exact ⟨g, hg, hall⟩
      obtain ⟨before, g, after, rfl, hg, hnone⟩ := ih hgs
      refine ⟨x :: before, g, after, rfl, hg, ?_⟩
      rintro ⟨y, hy, hall⟩
      rcases mem_cons.1 hy with rfl | hy
      · exact hx hall
      · exact hnone ⟨y, hy, hall⟩

/-- **When the two readings agree:** before the first true group, only last operands are false. -/
theorem reached_iff_holds_iff (gs : List (List Bool)) : (Reached gs ↔ Holds gs) ↔
    ∀ before g after, gs = before ++ g :: after → (∀ b ∈ g, b = true) → ¬Holds before →
      ∀ h ∈ before, ∀ b ∈ h.dropLast, b = true := by
  constructor
  · intro hiff before g after heq hg hnone
    obtain ⟨before', g', after', heq', hg', hbefore'⟩ := hiff.2 ⟨g, heq ▸ mem_append_right _ mem_cons_self, hg⟩
    -- a true group is not among those before the first one
    obtain ⟨k, hk⟩ | ⟨k, hk⟩ : before <+: before' ∨ before' <+: before :=
      prefix_or_prefix_of_prefix (heq ▸ prefix_append _ _) (heq' ▸ prefix_append _ _)
    · exact fun h hh => hbefore' h (hk ▸ mem_append_left _ hh)
    · cases k with
      | nil =>
        rw [append_nil] at hk
        exact hk ▸ hbefore'
      | cons x k =>
        rw [heq, ← hk, append_assoc, append_cancel_left_eq, cons_append] at heq'
        obtain ⟨rfl, -⟩ := List.cons.inj heq'
        exact absurd ⟨x, hk ▸ mem_append_right _ mem_cons_self, hg'⟩ hnone
  · intro h
    refine ⟨Reached.holds, fun hholds => ?_⟩
    obtain ⟨before, g, after, heq, hg, hnone⟩ := hholds.first
    exact ⟨before, g, after, heq, hg, h before g after heq hg hnone⟩

end Operators
