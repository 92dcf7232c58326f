/-
Tokens of a string: `CString::Token` of `src/ZNCString.cpp`, for a separator of one byte.

`skipTokens` is the loop that looks for the start of the token. Without `bAllowEmpty` a run of separators counts once, and
separators in front of the string do not count at all.

Results:
- `token_eq_fields`: without empty tokens, `Token(uPos)` is the word number `uPos` between runs of separators, and empty
  behind the last one;
- `token_rest`: `Token(1, true)` is what follows the first word and its run of separators.
-/
import ZNC.Lib.Words
import ZNC.CString

namespace ZNC.CString

open Words List

/-! ## Model -/

/-- the string from the start of the token `uPos` on -/
def skipTokens (cSep : UInt8) (bAllowEmpty : Bool) : ℕ → CString → CString
  | 0, p => p
  | _ + 1, [] => []
  | uPos + 1, c :: p =>
    if c = cSep then
      -- inside a run of separators
      if !bAllowEmpty && p.head? = some cSep then skipTokens cSep bAllowEmpty (uPos + 1) p
      else skipTokens cSep bAllowEmpty uPos p
    else skipTokens cSep bAllowEmpty (uPos + 1) p

def token (s : CString) (uPos : ℕ) (bRest : Bool) (cSep : UInt8) (bAllowEmpty : Bool) : CString :=
  let p := skipTokens cSep bAllowEmpty uPos (if bAllowEmpty then s else s.dropWhile (· = cSep))
  if bRest then p else p.takeWhile (· ≠ cSep)

/-! ## Tokens are words -/

variable (cSep : UInt8)

theorem skipTokens_run (uPos : ℕ) (p : CString) :
    skipTokens cSep false (uPos + 1) (cSep :: p) = skipTokens cSep false uPos (p.dropWhile (· = cSep)) := by
  induction p with
  | nil => simp [skipTokens]
  | cons c p ih =>
    by_cases hc : c = cSep
    · rw [hc, skipTokens, if_pos rfl, if_pos (by simp), ih, dropWhile_cons_of_pos (by simp)]
    · rw [skipTokens, if_pos rfl, if_neg (by simpa using hc), dropWhile_cons_of_neg (by simpa using hc)]

theorem skipTokens_word (uPos : ℕ) (p : CString) :
    skipTokens cSep false (uPos + 1) p = skipTokens cSep false uPos (word cSep p).2 := by
  induction p with
  | nil => cases uPos <;> rfl
  | cons c p ih =>
    by_cases hc : c = cSep
    · rw [hc, skipTokens_run, word, dropWhile_cons_of_neg (by simp), dropWhile_cons_of_pos (by simp)]
    · rw [skipTokens, if_neg hc, ih, word, word, dropWhile_cons_of_pos (by simpa using hc)]

theorem head_word (p : CString) : (word cSep p).2.head? ≠ some cSep := by
  intro h
  have hnot := head?_dropWhile_not (· = cSep) (p.dropWhile (· ≠ cSep))
  rw [word] at h
  rw [h] at hnot
  simp at hnot

theorem skipTokens_fields (uPos : ℕ) (p : CString) (hp : p.head? ≠ some cSep) :
    (skipTokens cSep false uPos p).takeWhile (· ≠ cSep) = (fields cSep p).getD uPos [] := by
  induction uPos generalizing p with
  | zero =>
    by_cases hne : p = []
    · rw [hne]
      rfl
    · rw [fields_eq_word hne hp, skipTokens]
      rfl
  | succ uPos ih =>
    by_cases hne : p = []
    · rw [hne]
      rfl
    · rw [skipTokens_word, ih _ (head_word cSep p), fields_eq_word hne hp, getD_cons_succ]

theorem token_eq_fields (s : CString) (uPos : ℕ) (cSep : UInt8) :
    s.token uPos false cSep false = (fields cSep s).getD uPos [] := by
  have hhead : (s.dropWhile (· = cSep)).head? ≠ some cSep := by
    intro h
    have hnot := head?_dropWhile_not (· = cSep) s
    rw [h] at hnot
    simp at hnot
  rw [← fields_dropWhile, ← skipTokens_fields cSep uPos _ hhead]
  rfl

theorem token_zero_length (s : CString) (cSep : UInt8) : (s.token 0 false cSep false).length ≤ s.length ∧
    ((s.token 0 false cSep false).length = s.length → cSep ∉ s) := by
  have hnot : cSep ∉ s.token 0 false cSep false := by
    intro h
    simpa using mem_takeWhile_imp h
  have hsub : s.token 0 false cSep false <+: s.dropWhile (· = cSep) := by
    rw [token, if_neg Bool.false_ne_true, if_neg Bool.false_ne_true, skipTokens]
    exact takeWhile_prefix _
  have hsub' := hsub.sublist.trans (dropWhile_sublist _)
  refine ⟨hsub'.length_le, fun hlen => ?_⟩
  rw [← hsub'.eq_of_length hlen]
  exact hnot

theorem token_zero_of_not_mem {s : CString} {cSep : UInt8} (h : cSep ∉ s) : s.token 0 false cSep false = s := by
  rw [token_eq_fields, fields_of_not_mem h]
  split_ifs with h0
  · rw [h0]
    rfl
  · rfl

theorem token_rest_of_not_mem {s : CString} {cSep : UInt8} (h : cSep ∉ s) : s.token 1 true cSep false = [] := by
  have hstart : cSep ∉ s.dropWhile (· = cSep) := fun hm => h ((dropWhile_sublist _).subset hm)
  rw [token, if_neg Bool.false_ne_true, if_pos rfl, skipTokens_word, skipTokens, word_of_not_mem hstart]

theorem token_zero_append {w : CString} {cSep : UInt8} (hne : w ≠ []) (hw : cSep ∉ w) (r : CString) :
    (w ++ cSep :: r).token 0 false cSep false = w := by
  rw [token_eq_fields, fields_append hw, if_neg hne]
  rfl

theorem length_token_rest_lt {s : CString} (hne : s ≠ []) (cSep : UInt8) :
    (s.token 1 true cSep false).length < s.length := by
  have hstart : (s.dropWhile (· = cSep)).length ≤ s.length := (dropWhile_sublist _).length_le
  have hrest : s.token 1 true cSep false = (word cSep (s.dropWhile (· = cSep))).2 := by
    rw [token, if_neg Bool.false_ne_true, if_pos rfl, skipTokens_word, skipTokens]
  rw [hrest]
  by_cases h0 : s.dropWhile (· = cSep) = []
  · rw [h0]
    exact length_pos_iff.2 hne
  · exact (length_word_lt cSep h0).trans_le hstart

theorem token_rest {w : CString} {cSep : UInt8} (hne : w ≠ []) (hw : cSep ∉ w) (r : CString) :
    (w ++ cSep :: r).token 1 true cSep false = r.dropWhile (· = cSep) := by
  have hstart : (w ++ cSep :: r).dropWhile (· = cSep) = w ++ cSep :: r := by
    cases w with
    | nil => exact absurd rfl hne
    | cons c w =>
      have hc : c ≠ cSep := fun h => hw (by rw [h]; exact mem_cons_self)
      rw [cons_append, dropWhile_cons_of_neg (by simpa using hc)]
  have hcut : (w ++ cSep :: r).dropWhile (· ≠ cSep) = cSep :: r := (takeWhile_append_sep hw r).2
  calc (w ++ cSep :: r).token 1 true cSep false = skipTokens cSep false 1 (w ++ cSep :: r) := by
        rw [token, if_neg Bool.false_ne_true, if_pos rfl, hstart]
    _ = (word cSep (w ++ cSep :: r)).2 := by rw [skipTokens_word, skipTokens]
    _ = (cSep :: r).dropWhile (· = cSep) := by rw [word, hcut]
    _ = r.dropWhile (· = cSep) := dropWhile_cons_of_pos (by simp)

end ZNC.CString
