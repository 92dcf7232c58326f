/-
Windows of time: the first mark opens one, and a mark that comes too late for the window of the marks before it opens the
next.

A journal has its newest mark first. The window of a journal is its front from the newest mark back to the one that opened the
last window, and no mark of it is later than `T` after that one.

Results:
- `window_open`, `window_closed`: what one mark more does to the window;
- `window_front`, `window_within`: the window is a front of the journal, within `T`.
-/
import Mathlib.Tactic

namespace Windows

variable {τ : Type} [LinearOrder τ] [Add τ] (T : τ)

def window : List τ → List τ
  | [] => []
  | t :: ts =>
    match (window ts).getLast? with
    | none => [t]
    | some s => if t ≤ s + T then t :: window ts else [t]

/-- the mark that opened the last window -/
def opened (ts : List τ) : Option τ := (window T ts).getLast?

/-- the marks are no further apart than `T` -/
def Within (ts : List τ) : Prop := ∃ s, ∀ t ∈ ts, s ≤ t ∧ t ≤ s + T

variable {T}

theorem window_open {ts : List τ} {s t : τ} (h : opened T ts = some s) (ht : t ≤ s + T) :
    window T (t :: ts) = t :: window T ts ∧ opened T (t :: ts) = some s := by
  have hwindow : window T (t :: ts) = t :: window T ts := by
    have hlast : (window T ts).getLast? = some s := h
    rw [window, hlast]
    simp only [if_pos ht]
  refine ⟨hwindow, ?_⟩
  rw [opened, hwindow, List.getLast?_cons]
  rw [opened] at h
  rw [h, Option.getD_some]

theorem window_closed {ts : List τ} {t : τ} (h : ∀ s ∈ opened T ts, s + T < t) :
    window T (t :: ts) = [t] ∧ opened T (t :: ts) = some t := by
  have hwindow : window T (t :: ts) = [t] := by
    rw [window]
    cases hlast : (window T ts).getLast? with
    | none => rfl
    | some s => exact if_neg (not_le.2 (h s hlast))
  exact ⟨hwindow, by rw [opened, hwindow, List.getLast?_singleton]⟩

theorem window_front (ts : List τ) : window T ts <+: ts := by
  induction ts with
  | nil => exact List.prefix_rfl
  | cons t ts ih =>
    have hone : [t] <+: t :: ts := List.prefix_append [t] ts
    rw [window]
    split
    · exact hone
    · split_ifs with ht
      · exact (List.prefix_cons_inj t).2 ih
      · exact hone

/-- **The window is within its time**, where time does not run backwards. -/
theorem window_within (hT : ∀ t : τ, t ≤ t + T) {ts : List τ} (hsorted : ts.Pairwise (· ≥ ·)) :
    Within T (window T ts) := by
  cases hopened : opened T ts with
  | none =>
    have hnil : window T ts = [] := List.getLast?_eq_none_iff.1 hopened
    rw [hnil]
    cases ts with
    | nil => exact ⟨T, fun t ht => nomatch ht⟩
    | cons t ts => exact ⟨t, fun t ht => nomatch ht⟩
  | some s =>
    refine ⟨s, ?_⟩
    induction ts with
    | nil => cases hopened
    | cons t ts ih =>
      obtain ⟨ht, hts⟩ := List.pairwise_cons.1 hsorted
      by_cases hopen : ∃ s', opened T ts = some s' ∧ t ≤ s' + T
      · obtain ⟨s', hs', hle⟩ := hopen
        obtain ⟨hwindow, hstart⟩ := window_open hs' hle
        obtain rfl : s' = s := Option.some.inj (hstart.symm.trans hopened)
        rw [hwindow]
        intro u hu
        rcases List.mem_cons.1 hu with rfl | hu
        · have hmem : s' ∈ window T ts := List.mem_of_getLast? hs'
          exact ⟨ht s' ((window_front ts).subset hmem), hle⟩
        · exact ih hts hs' u hu
      · have hclosed : ∀ s' ∈ opened T ts, s' + T < t := fun s' hs' => not_le.1 fun hle => hopen ⟨s', hs', hle⟩
        obtain ⟨hwindow, hstart⟩ := window_closed hclosed
        obtain rfl : t = s := Option.some.inj (hstart.symm.trans hopened)
        rw [hwindow]
        intro u hu
        rw [List.mem_singleton.1 hu]
        exact ⟨le_rfl, hT t⟩

end Windows
