/-
Assignments by key: a state is changed key by key, by those values that a source gives.

A key that the source does not have keeps what the state had before. Two runs of the same assignments then agree at a key
exactly if the source has it or the states that they began with agreed there.

Results:
- `assignAll_ok_iff`: when all assignments go through, whatever the state;
- `agree_iff`: where two runs agree;
- `agree_of_src`: what a key has that was assigned.
-/
import Mathlib.Data.List.Basic

namespace Assignments

variable {σ κ β ε : Type}

/-- the assignments of the keys in order; a key that the source does not have is left out -/
def assignAll (assign : κ → β → σ → Except ε σ) (src : κ → Option β) (ks : List κ) (s : σ) : Except ε σ :=
  ks.foldlM (fun s k => match src k with
    | none => .ok s
    | some v => assign k v s) s

/-- an assignment fails or goes through whatever the state, determines its key and leaves the others as they were -/
structure Lawful (Agree : κ → σ → σ → Prop) (assign : κ → β → σ → Except ε σ) : Prop where
  equiv : ∀ k, Equivalence (Agree k)
  same : ∀ {k v s r} (s' : σ), assign k v s = .ok r → ∃ r', assign k v s' = .ok r' ∧ Agree k r r'
  frame : ∀ {k k' v s r}, assign k v s = .ok r → k' ≠ k → Agree k' r s

variable {Agree : κ → σ → σ → Prop} {assign : κ → β → σ → Except ε σ} {src : κ → Option β}

theorem assignAll_none {k : κ} (hk : src k = none) (ks : List κ) (s : σ) :
    assignAll assign src (k :: ks) s = assignAll assign src ks s := by
  rw [assignAll, List.foldlM_cons, hk]
  rfl

theorem assignAll_some {k : κ} {v : β} (hk : src k = some v) (ks : List κ) (s : σ) :
    assignAll assign src (k :: ks) s = (assign k v s).bind (assignAll assign src ks) := by
  rw [assignAll, List.foldlM_cons, hk]
  rfl

theorem bind_ok {x : Except ε σ} {f : σ → Except ε σ} {r : σ} (h : x.bind f = .ok r) :
    ∃ s, x = .ok s ∧ f s = .ok r := by
  cases x with
  | error e => cases h
  | ok s => exact ⟨s, rfl, h⟩

namespace Lawful

theorem assignAll_ok_iff (h : Lawful Agree assign) (ks : List κ) (s : σ) :
    (∃ r, assignAll assign src ks s = .ok r) ↔
      ∀ k ∈ ks, ∀ v, src k = some v → ∃ s' r', assign k v s' = .ok r' := by
  induction ks generalizing s with
  | nil => exact iff_of_true ⟨s, rfl⟩ fun k hk => nomatch hk
  | cons k ks ih =>
    rw [List.forall_mem_cons]
    cases hk : src k with
    | none =>
      have hno : ∀ v, none = some v → ∃ s' r', assign k v s' = .ok r' := fun v hv => by cases hv
      rw [assignAll_none hk, ih]
      exact ⟨fun hall => ⟨hno, hall⟩, fun hall => hall.2⟩
    | some v =>
      rw [assignAll_some hk]
      constructor
      · rintro ⟨r, hr⟩
        obtain ⟨t, ht, hrest⟩ := bind_ok hr
        refine ⟨fun v' hv' => ?_, (ih t).1 ⟨r, hrest⟩⟩
        cases hv'
        exact ⟨s, t, ht⟩
      · rintro ⟨hfirst, hrest⟩
        obtain ⟨s', r', hr'⟩ := hfirst v rfl
        obtain ⟨t, ht, -⟩ := h.same s hr'
        rw [ht]
        exact (ih t).2 hrest

variable {ks : List κ}

theorem agree_of_not_mem (h : Lawful Agree assign) {s r : σ} (hr : assignAll assign src ks s = .ok r) {k : κ}
    (hk : k ∉ ks) : Agree k r s := by
  induction ks generalizing s with
  | nil =>
    cases hr
    exact (h.equiv k).refl r
  | cons k' ks ih =>
    obtain ⟨hne, hk⟩ := not_or.1 fun hmem => hk (List.mem_cons.2 hmem)
    cases hsrc : src k' with
    | none =>
      rw [assignAll_none hsrc] at hr
      exact ih hr hk
    | some v =>
      rw [assignAll_some hsrc] at hr
      obtain ⟨t, ht, hrest⟩ := bind_ok hr
      exact (h.equiv k).trans (ih hrest hk) (h.frame ht hne)

theorem agree_of_src (h : Lawful Agree assign) (hks : ks.Nodup) {s r : σ} (hr : assignAll assign src ks s = .ok r)
    {k : κ} (hk : k ∈ ks) {v : β} (hv : src k = some v) (s' : σ) :
    ∃ r', assign k v s' = .ok r' ∧ Agree k r r' := by
  induction ks generalizing s with
  | nil => cases hk
  | cons k' ks ih =>
    obtain ⟨hfirst, hks⟩ := List.nodup_cons.1 hks
    cases hsrc : src k' with
    | none =>
      rw [assignAll_none hsrc] at hr
      refine ih hks hr ((List.mem_cons.1 hk).resolve_left fun heq => ?_)
      rw [heq, hsrc] at hv
      cases hv
    | some v' =>
      rw [assignAll_some hsrc] at hr
      obtain ⟨t, ht, hrest⟩ := bind_ok hr
      rcases List.mem_cons.1 hk with rfl | hk
      · obtain rfl : v = v' := Option.some.inj (hv.symm.trans hsrc)
        obtain ⟨r', hr', hagree⟩ := h.same s' ht
        exact ⟨r', hr', (h.equiv k).trans (h.agree_of_not_mem hrest hfirst) hagree⟩
      · exact ih hks hrest hk

theorem agree_of_none (h : Lawful Agree assign) {s r : σ} (hr : assignAll assign src ks s = .ok r) {k : κ}
    (hk : src k = none) : Agree k r s := by
  induction ks generalizing s with
  | nil =>
    cases hr
    exact (h.equiv k).refl r
  | cons k' ks ih =>
    cases hsrc : src k' with
    | none =>
      rw [assignAll_none hsrc] at hr
      exact ih hr
    | some v =>
      rw [assignAll_some hsrc] at hr
      obtain ⟨t, ht, hrest⟩ := bind_ok hr
      refine (h.equiv k).trans (ih hrest) (h.frame ht ?_)
      rintro rfl
      rw [hk] at hsrc
      cases hsrc

theorem agree_iff (h : Lawful Agree assign) (hks : ks.Nodup) {s s' r r' : σ} (hr : assignAll assign src ks s = .ok r)
    (hr' : assignAll assign src ks s' = .ok r') {k : κ} (hk : k ∈ ks) :
    Agree k r r' ↔ (src k = none → Agree k s s') := by
  have hequiv := h.equiv k
  cases hsrc : src k with
  | none =>
    have hold := h.agree_of_none hr hsrc
    have hold' := h.agree_of_none hr' hsrc
    constructor
    · intro hagree _
      exact hequiv.trans (hequiv.symm hold) (hequiv.trans hagree hold')
    · intro hagree
      exact hequiv.trans hold (hequiv.trans (hagree rfl) (hequiv.symm hold'))
  | some v =>
    refine iff_of_true ?_ fun hnone => by cases hnone
    obtain ⟨t, ht, hagree⟩ := h.agree_of_src hks hr hk hsrc s
    obtain ⟨t', ht', hagree'⟩ := h.agree_of_src hks hr' hk hsrc s
    obtain rfl : t = t' := Except.ok.inj (ht.symm.trans ht')
    exact hequiv.trans hagree (hequiv.symm hagree')

end Lawful

end Assignments
