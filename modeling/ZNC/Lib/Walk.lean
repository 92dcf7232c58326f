/-
Walks of a deterministic partial step function: when they end, and that they repeat nothing when they do.

`next s` is the state after `s`, or nothing when the walk ends there. `visit next s n` is the n-th state after `s`.

Results:
- `halts_iff_of_reaches`: a walk ends exactly if it ends from any state it comes through;
- `not_halts_of_cycle`, `not_halts_of_closed`: a walk that comes back to a state, or that stays in a set whose states all
  have a successor in it, never ends;
- `visit_ne_of_halts`: a walk that ends visits no state twice;
- `halts_chain_iff`: a walk along a list which is thrown back to the head of the list by certain states ends exactly if
  none of these is on the list.
-/
import Mathlib.Tactic

namespace Walk

open Relation Option

variable {S : Type} (next : S → Option S)

/-- one step of the walk -/
def Goes (s t : S) : Prop := next s = some t

/-- the n-th state of the walk from `s` -/
def visit (s : S) : ℕ → Option S
  | 0 => some s
  | n + 1 => (visit s n).bind next

/-- the walk from `s` ends -/
def Halts (s : S) : Prop := ∃ n, visit next s n = none

variable {next}

theorem visit_succ (s : S) (n : ℕ) : visit next s (n + 1) = (next s).bind fun t => visit next t n := by
  induction n with
  | zero =>
    show (some s).bind next = (next s).bind some
    rw [bind_some, bind_fun_some]
  | succ n ih =>
    rw [visit, ih, bind_assoc]
    rfl

variable {s : S}

theorem halts_of_none (h : next s = none) : Halts next s := ⟨1, h⟩

theorem halts_iff_of_goes {t : S} (h : Goes next s t) : Halts next s ↔ Halts next t := by
  constructor
  · rintro ⟨n, hn⟩
    cases n with
    | zero => exact absurd hn (by simp [visit])
    | succ n =>
      rw [visit_succ, h, bind_some] at hn
      exact ⟨n, hn⟩
  · rintro ⟨n, hn⟩
    refine ⟨n + 1, ?_⟩
    rw [visit_succ, h, bind_some]
    exact hn

/-- **Ending is a property of the whole walk.** -/
theorem halts_iff_of_reaches {t : S} (h : ReflTransGen (Goes next) s t) : Halts next s ↔ Halts next t := by
  induction h with
  | refl => exact Iff.rfl
  | tail _ hgo ih => exact ih.trans (halts_iff_of_goes hgo)

/-! ## Walks that go on for ever -/

theorem not_halts_of_closed (P : S → Prop) (hP : ∀ s, P s → ∃ t, next s = some t ∧ P t) (hs : P s) :
    ¬ Halts next s := by
  rintro ⟨n, hn⟩
  induction n generalizing s with
  | zero => exact absurd hn (by simp [visit])
  | succ n ih =>
    obtain ⟨t, hgo, ht⟩ := hP s hs
    rw [visit_succ, hgo, bind_some] at hn
    exact ih ht hn

theorem not_halts_of_cycle (h : TransGen (Goes next) s s) : ¬ Halts next s := by
  refine not_halts_of_closed (fun x => TransGen (Goes next) x s) ?_ h
  intro x hx
  obtain ⟨y, hgo, hy⟩ := TransGen.head'_iff.1 hx
  rcases reflTransGen_iff_eq_or_transGen.1 hy with hsy | hy
  · exact ⟨y, hgo, by rw [← hsy]; exact h⟩
  · exact ⟨y, hgo, hy⟩

theorem reaches_of_visit {t : S} {n : ℕ} (h : visit next s n = some t) : ReflTransGen (Goes next) s t := by
  induction n generalizing t with
  | zero =>
    obtain rfl := some_inj.1 h
    exact ReflTransGen.refl
  | succ n ih =>
    obtain ⟨u, hu, hgo⟩ := bind_eq_some_iff.1 h
    exact (ih hu).tail hgo

theorem transGen_of_visit {t u : S} {i k : ℕ} (hi : visit next s i = some t) (hj : visit next s (i + k + 1) = some u) :
    TransGen (Goes next) t u := by
  induction k generalizing u with
  | zero =>
    rw [Nat.add_zero, visit, hi, bind_some] at hj
    exact TransGen.single hj
  | succ k ih =>
    obtain ⟨v, hv, hgo⟩ := bind_eq_some_iff.1 hj
    exact (ih hv).tail hgo

theorem visit_ne_of_halts (h : Halts next s) {i j : ℕ} (hij : i < j) {a b : S} (ha : visit next s i = some a)
    (hb : visit next s j = some b) : a ≠ b := by
  obtain ⟨k, rfl⟩ := Nat.exists_eq_add_of_lt hij
  intro hab
  rw [← hab] at hb
  exact not_halts_of_cycle (transGen_of_visit ha hb) ((halts_iff_of_reaches (reaches_of_visit ha)).1 h)

/-! ## Walks along a list -/

theorem reaches_home {home : S → Prop} (x : S) (l : List S)
    (hchain : (x :: l).IsChain fun y z => ¬ home y → Goes next y z) (h : ∃ y ∈ x :: l, home y) :
    ∃ y, home y ∧ ReflTransGen (Goes next) x y := by
  induction l generalizing x with
  | nil =>
    obtain ⟨y, hy, hh⟩ := h
    obtain rfl := List.mem_singleton.1 hy
    exact ⟨y, hh, ReflTransGen.refl⟩
  | cons z l ih =>
    by_cases hx : home x
    · exact ⟨x, hx, ReflTransGen.refl⟩
    · obtain ⟨hgo, hrest⟩ := List.isChain_cons_cons.1 hchain
      obtain ⟨y, hy, hh⟩ := h
      rcases List.mem_cons.1 hy with rfl | hy
      · exact absurd hh hx
      · obtain ⟨w, hw, hreach⟩ := ih z hrest ⟨y, hy, hh⟩
        exact ⟨w, hw, ReflTransGen.head (hgo hx) hreach⟩

theorem halts_along {home : S → Prop} (x : S) (l : List S)
    (hchain : (x :: l).IsChain fun y z => ¬ home y → Goes next y z)
    (hlast : ∀ y ∈ (x :: l).getLast?, ¬ home y → next y = none) (h : ∀ y ∈ x :: l, ¬ home y) : Halts next x := by
  induction l generalizing x with
  | nil => exact halts_of_none (hlast x rfl (h x List.mem_cons_self))
  | cons z l ih =>
    obtain ⟨hgo, hrest⟩ := List.isChain_cons_cons.1 hchain
    refine (halts_iff_of_goes (hgo (h x List.mem_cons_self))).2
      (ih z hrest ?_ fun y hy => h y (List.mem_cons_of_mem _ hy))
    intro y hy
    exact hlast y (by rw [List.getLast?_cons_cons]; exact hy)

theorem halts_chain_iff {home : S → Prop} (x : S) (l : List S)
    (hchain : (x :: l).IsChain fun y z => ¬ home y → Goes next y z)
    (hlast : ∀ y ∈ (x :: l).getLast?, ¬ home y → next y = none) (hhome : ∀ y, home y → TransGen (Goes next) y x) :
    Halts next x ↔ ∀ y ∈ x :: l, ¬ home y := by
  constructor
  · intro hhalt y hy hh
    obtain ⟨z, hz, hreach⟩ := reaches_home x l hchain ⟨y, hy, hh⟩
    exact not_halts_of_cycle (TransGen.trans_right hreach (hhome z hz)) hhalt
  · exact halts_along x l hchain hlast

end Walk
