/-
Decimal numbers in a text, as `strtol` with base 10 and the streams of the C++ library read them.

A number is read after white space and one sign, and up to the first letter that is no digit.

Results:
- `strtol_ten`: the number that `strtol` finds;
- `convert_digits`, `convert_no_digits`: what `Convert` makes of a text for an `int`.
-/
import Mathlib.Data.FinEnum
import ZNC.Escape

namespace ZNC.CString

open List

/-- the value of a text of digits -/
def decimal (w : CString) : ℕ := w.foldl (fun n c => n * 10 + (c.toNat - 48)) 0

/-- the digits at the start of a text -/
def digits (s : CString) : CString := s.takeWhile isdigit

/-- `Convert(&n)` for an `int`: `>>` of a string stream, which fails without digits and for a number that does not fit -/
def convert (s : CString) : Option ℤ :=
  let (n, endptr) := strtol s 10
  if endptr = s then none else if -2 ^ 31 ≤ n ∧ n < 2 ^ 31 then some n else none

theorem digitValue_ten (c : UInt8) : digitValue 10 c = if isdigit c then some (c.toNat - 48) else none := by
  rw [digitValue]
  split_ifs with h1 h2
  · rfl
  · exact absurd h2 (by simp)
  · rfl

theorem strtolDigits_ten (s : CString) (v n : ℕ) : strtolDigits 10 s v n =
    (s.digits.foldl (fun n c => n * 10 + (c.toNat - 48)) v, n + s.digits.length, s.dropWhile isdigit) := by
  induction s generalizing v n with
  | nil => rfl
  | cons c s ih =>
    rw [strtolDigits, digitValue_ten, digits]
    by_cases hc : isdigit c = true
    · rw [if_pos hc, takeWhile_cons_of_pos hc, dropWhile_cons_of_pos hc, foldl_cons, length_cons]
      dsimp only
      rw [ih, digits, Nat.add_right_comm, Nat.add_assoc]
    · rw [if_neg hc, takeWhile_cons_of_neg hc, dropWhile_cons_of_neg hc]
      rfl

theorem isdigit_cases : ∀ c : UInt8, isdigit c = true → isspace c = false ∧ c ≠ ch '-' ∧ c ≠ ch '+' := by decide +kernel

/-- what white space and a sign leave of a text -/
def unsigned (s : CString) : CString :=
  let p := s.dropWhile isspace
  if p.head? = some (ch '-') ∨ p.head? = some (ch '+') then p.drop 1 else p

theorem strtolDigits_cases (p : CString) :
    p.digits = [] ∧ strtolDigits 10 p 0 0 = (0, 0, p.dropWhile isdigit) ∨
      ∃ n, p.digits ≠ [] ∧ strtolDigits 10 p 0 0 = (p.digits.decimal, n + 1, p.dropWhile isdigit) := by
  rw [strtolDigits_ten, Nat.zero_add, ← decimal]
  cases h : p.digits with
  | nil => exact .inl ⟨rfl, rfl⟩
  | cons c w => exact .inr ⟨w.length, cons_ne_nil c w, rfl⟩

theorem strtol_ten (s : CString) : strtol s 10 =
    if s.unsigned.digits = [] then (0, s)
    else (if (s.dropWhile isspace).head? = some (ch '-') then -(s.unsigned.digits.decimal : ℤ) else s.unsigned.digits.decimal,
      s.unsigned.dropWhile isdigit) := by
  rw [strtol, unsigned]
  generalize s.dropWhile isspace = p
  cases p with
  | nil => rfl
  | cons c p =>
    by_cases hminus : c = ch '-'
    · subst hminus
      rcases strtolDigits_cases p with ⟨hno, hread⟩ | ⟨n, hsome, hread⟩
      · simp [hno, hread]
      · simp [hsome, hread]
    · by_cases hplus : c = ch '+'
      · subst hplus
        rcases strtolDigits_cases p with ⟨hno, hread⟩ | ⟨n, hsome, hread⟩
        · simp [hno, hread, hminus]
        · simp [hsome, hread, hminus]
      · rcases strtolDigits_cases (c :: p) with ⟨hno, hread⟩ | ⟨n, hsome, hread⟩
        · simp [hno, hread, hminus, hplus]
        · simp [hsome, hread, hminus, hplus]

theorem length_unsigned_le (s : CString) : s.unsigned.length ≤ s.length := by
  have hle := (dropWhile_sublist (l := s) isspace).length_le
  rw [unsigned]
  split_ifs
  · rw [length_drop]
    omega
  · exact hle

/-- **The number that `Convert` finds.** -/
theorem convert_eq (s : CString) : convert s =
    if s.unsigned.digits = [] then none
    else if -2 ^ 31 ≤ (strtol s 10).1 ∧ (strtol s 10).1 < 2 ^ 31 then some (strtol s 10).1 else none := by
  rw [convert]
  by_cases h : s.unsigned.digits = []
  · have hstrtol : strtol s 10 = (0, s) := by rw [strtol_ten, if_pos h]
    rw [if_pos h, hstrtol]
    exact if_pos rfl
  · have hmoved : (strtol s 10).2 ≠ s := by
      intro hsame
      have hcut := congrArg List.length (takeWhile_append_dropWhile (p := isdigit) (l := s.unsigned))
      have hpos := length_pos_iff.2 h
      have hle := length_unsigned_le s
      rw [strtol_ten, if_neg h] at hsame
      rw [show s.unsigned.dropWhile isdigit = s from hsame, length_append] at hcut
      rw [digits] at hpos
      omega
    rw [if_neg h]
    exact if_neg hmoved

theorem unsigned_of_digits {s : CString} (h : s.digits ≠ []) :
    s.unsigned = s ∧ (s.dropWhile isspace).head? ≠ some (ch '-') := by
  cases s with
  | nil => exact absurd rfl h
  | cons c s =>
    have hc : isdigit c = true := by
      by_contra hc
      exact h (takeWhile_cons_of_neg hc)
    obtain ⟨hspace, hminus, hplus⟩ := isdigit_cases c hc
    rw [unsigned, dropWhile_cons_of_neg (by rw [hspace]; exact Bool.false_ne_true)]
    simp [hminus, hplus]

theorem convert_digits {s : CString} (h : s.digits ≠ []) :
    convert s = if s.digits.decimal < 2 ^ 31 then some (s.digits.decimal : ℤ) else none := by
  obtain ⟨hunsigned, hminus⟩ := unsigned_of_digits h
  have hvalue : (strtol s 10).1 = (s.digits.decimal : ℤ) := by
    rw [strtol_ten, hunsigned, if_neg h, if_neg hminus]
  have hbound : (-2 ^ 31 ≤ (s.digits.decimal : ℤ) ∧ (s.digits.decimal : ℤ) < 2 ^ 31) ↔ s.digits.decimal < 2 ^ 31 := by omega
  rw [convert_eq, hunsigned, if_neg h, hvalue]
  simp only [hbound]

/-- without a digit at its start, a text that has a number begins with white space or a sign, and a digit follows the plus -/
theorem convert_no_digits {c : UInt8} {p : CString} (h : digits (c :: p) = []) (hsome : (convert (c :: p)).isSome) :
    c ≠ ch '%' ∧ (c = ch '+' → p.digits ≠ []) := by
  have hnumber : (unsigned (c :: p)).digits ≠ [] := by
    intro hno
    rw [convert_eq, if_pos hno] at hsome
    exact absurd hsome (by simp)
  refine ⟨?_, ?_⟩
  · rintro rfl
    exact hnumber h
  · rintro rfl
    exact hnumber

end ZNC.CString
