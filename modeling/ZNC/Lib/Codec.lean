/-
Decoders that read a text from the left, one symbol at a time, and the C loop that runs them.

A decoder step `dec b l` looks at a text `b :: l`, yields at most one symbol and says how many further units it took.
`decodeAll` repeats it to the end of the text. An encoding is self-delimiting for the step (`SelfDelimiting`) when the
step, at the code of a symbol followed by anything, yields that symbol and takes exactly its code.

`countedLoop` is `for (unsigned int a = 0; a < n; a++) body` with a 32-bit counter which the body may move itself, on a
bound `n` of any size. It is `none` when the given fuel did not suffice.

Results:
- `decodeAll_flatMap`: the code of a symbol list decodes to that list, in front of any text;
- `wellCut_flatMap`: no step runs off the end of an encoded text;
- `countedLoop_none`: from a bound of 2^32 on the loop never ends;
- `countedLoop_eq`: below, a loop whose body is a decoder step that stays in the text ends after at most `n` rounds,
  with the output of `decodeAll`.
-/
import Mathlib.Tactic

namespace Codec

open List

variable {α β γ : Type}

/-! ## Decoding a text -/

/-- repeat the step to the end of the text -/
def decodeAll (dec : β → List β → Option α × ℕ) : List β → List α
  | [] => []
  | b :: l => (dec b l).1.toList ++ decodeAll dec (l.drop (dec b l).2)
termination_by l => l.length
decreasing_by simp only [length_drop, length_cons]; omega

theorem decodeAll_nil (dec : β → List β → Option α × ℕ) : decodeAll dec [] = [] := by rw [decodeAll]

theorem decodeAll_cons (dec : β → List β → Option α × ℕ) (b : β) (l : List β) :
    decodeAll dec (b :: l) = (dec b l).1.toList ++ decodeAll dec (l.drop (dec b l).2) := by rw [decodeAll]

/-- the step takes no more units than the text has, at every place it is run -/
def WellCut (dec : β → List β → Option α × ℕ) : List β → Prop
  | [] => True
  | b :: l => (dec b l).2 ≤ l.length ∧ WellCut dec (l.drop (dec b l).2)
termination_by l => l.length
decreasing_by simp only [length_drop, length_cons]; omega

theorem wellCut_nil (dec : β → List β → Option α × ℕ) : WellCut dec [] := by rw [WellCut]; trivial

theorem wellCut_cons (dec : β → List β → Option α × ℕ) (b : β) (l : List β) :
    WellCut dec (b :: l) ↔ (dec b l).2 ≤ l.length ∧ WellCut dec (l.drop (dec b l).2) := by rw [WellCut]

theorem steps_induction (dec : β → List β → Option α × ℕ) {P : List β → Prop} (hnil : P [])
    (hcons : ∀ b l, P (l.drop (dec b l).2) → P (b :: l)) : ∀ l, P l
  | [] => hnil
  | b :: l => hcons b l (steps_induction dec hnil hcons (l.drop (dec b l).2))
termination_by l => l.length
decreasing_by simp only [length_drop, length_cons]; omega

/-! ## Self-delimiting codes -/

/-- at the code of `a`, whatever follows, the step yields `a` and takes exactly its code -/
def SelfDelimiting (enc : α → List β) (dec : β → List β → Option α × ℕ) : Prop :=
  ∀ a, ∃ b t, enc a = b :: t ∧ ∀ l, dec b (t ++ l) = (some a, t.length)

variable {enc : α → List β} {dec : β → List β → Option α × ℕ}

theorem decodeAll_flatMap (h : SelfDelimiting enc dec) (s : List α) (l : List β) :
    decodeAll dec (s.flatMap enc ++ l) = s ++ decodeAll dec l := by
  induction s with
  | nil => rfl
  | cons a s ih =>
    obtain ⟨b, t, he, hd⟩ := h a
    rw [flatMap_cons, he, append_assoc, cons_append, decodeAll_cons, hd]
    simp [ih]

theorem wellCut_flatMap (h : SelfDelimiting enc dec) (s : List α) (l : List β) (hl : WellCut dec l) :
    WellCut dec (s.flatMap enc ++ l) := by
  induction s with
  | nil => exact hl
  | cons a s ih =>
    obtain ⟨b, t, he, hd⟩ := h a
    rw [flatMap_cons, he, append_assoc, cons_append, wellCut_cons, hd]
    exact ⟨by simp, by simpa using ih⟩

/-! ## The counted loop -/

/-- `for (unsigned int a = 0; a < n; a++)`: the body yields output and the counter it leaves behind -/
def countedLoop (body : UInt32 → List γ × UInt32) (n : ℕ) : ℕ → UInt32 → List γ → Option (List γ)
  | 0, _, _ => none
  | fuel + 1, a, out =>
    if a.toNat < n then countedLoop body n fuel ((body a).2 + 1) (out ++ (body a).1) else some out

/-- **A bound of 2^32 or more is never reached**: the counter wraps and the loop goes on, whatever the fuel. -/
theorem countedLoop_none (body : UInt32 → List γ × UInt32) (n : ℕ) (hn : 2 ^ 32 ≤ n) (fuel : ℕ) (a : UInt32)
    (out : List γ) : countedLoop body n fuel a out = none := by
  induction fuel generalizing a out with
  | zero => rfl
  | succ fuel ih =>
    have ha : a.toNat < n := lt_of_lt_of_le a.toNat_lt hn
    rw [countedLoop, if_pos ha]
    exact ih _ _

theorem countedLoop_eq (dec : β → List β → Option α × ℕ) (f : α → List γ) (body : UInt32 → List γ × UInt32)
    (s : List β) (hs : s.length < 2 ^ 32)
    (hbody : ∀ (a : UInt32) (b : β) (l : List β), s.drop a.toNat = b :: l →
      body a = ((dec b l).1.toList.flatMap f, a + UInt32.ofNat (dec b l).2)) :
    ∀ (l : List β) (a : UInt32) (out : List γ) (fuel : ℕ), s.drop a.toNat = l → a.toNat + l.length = s.length →
      WellCut dec l → l.length < fuel →
      countedLoop body s.length fuel a out = some (out ++ (decodeAll dec l).flatMap f) := by
  intro l
  induction l using steps_induction dec with
  | hnil =>
    intro a out fuel _ hlen _ hfuel
    obtain ⟨fuel, rfl⟩ := Nat.exists_eq_add_of_lt hfuel
    simp only [length_nil, Nat.add_zero, Nat.zero_add] at hlen ⊢
    rw [countedLoop, if_neg (by omega), decodeAll_nil]
    simp
  | hcons b l ih =>
    intro a out fuel hdrop hlen hcut hfuel
    obtain ⟨fuel, rfl⟩ := Nat.exists_eq_add_of_lt hfuel
    obtain ⟨hk, hcut⟩ := (wellCut_cons dec b l).1 hcut
    simp only [length_cons] at hlen hfuel
    set k := (dec b l).2 with hkdef
    -- the step stays inside the text, so the counter does not wrap
    have hk32 : (UInt32.ofNat k).toNat = k := by
      rw [UInt32.toNat_ofNat']; exact Nat.mod_eq_of_lt (by omega)
    have hnext : (a + UInt32.ofNat k + 1).toNat = a.toNat + k + 1 := by
      rw [UInt32.toNat_add, UInt32.toNat_add, hk32]
      simp only [UInt32.toNat_one]
      omega
    have hrest : s.drop (a.toNat + k + 1) = l.drop k := by
      rw [show a.toNat + k + 1 = a.toNat + (k + 1) by ring, ← drop_drop, hdrop, drop_succ_cons]
    rw [length_cons, countedLoop, if_pos (by omega), hbody a b l hdrop]
    simp only [← hkdef]
    rw [ih (a + UInt32.ofNat k + 1) _ _ (by rw [hnext, hrest]) (by rw [hnext, length_drop]; omega) hcut
      (by rw [length_drop]; omega), decodeAll_cons, flatMap_append, append_assoc]

end Codec
