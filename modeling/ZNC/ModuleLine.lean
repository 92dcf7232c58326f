/-
The line of a command for a module, and its words: `Token(uPos)` and `Token(uPos, true)` of `src/ZNCString.cpp`.

Results:
- `tok_eq_word`, `rest_succ`: the words, from the front;
- `tok_rest_append`, `tok_last`: the words of a text that is put together;
- `space_not_mem_tok`, `head_rest_one`: where no space stands;
-/
import ZNC.ServerLine

namespace ZNC.ModuleLine

open CString Words

/-! ## Model -/

abbrev Line : Type := { s : CString // (0 : UInt8) ∉ s ∧ ch '\n' ∉ s }

/-- `Token(uPos)` -/
def tok (s : CString) (uPos : ℕ) : CString := s.token uPos false (ch ' ') false

/-- `Token(uPos, true)` -/
def rest (s : CString) (uPos : ℕ) : CString := s.token uPos true (ch ' ') false

/-! ## Words -/

variable (s : CString)

theorem tok_zero : tok s 0 = (word (ch ' ') (s.dropWhile (· = ch ' '))).1 := (token_words s).1

/-- a word is the first one of what is left -/
theorem tok_eq_word (uPos : ℕ) : tok s uPos = (word (ch ' ') (rest s uPos)).1 := rfl

/-- what is left is behind the first word of what was left before -/
theorem rest_succ (uPos : ℕ) : rest s (uPos + 1) = (word (ch ' ') (rest s uPos)).2 := by
  have hskip : ∀ p : CString, skipTokens (ch ' ') false (uPos + 1) p =
      (word (ch ' ') (skipTokens (ch ' ') false uPos p)).2 := by
    induction uPos with
    | zero => exact fun p => by rw [skipTokens_word, skipTokens, skipTokens]
    | succ uPos ih => exact fun p => by rw [skipTokens_word, ih, skipTokens_word]
  exact hskip _

theorem tok_one : tok s 1 = (word (ch ' ') (rest s 1)).1 := tok_eq_word s 1

theorem rest_two : rest s 2 = (word (ch ' ') (rest s 1)).2 := rest_succ s 1

theorem tok_two : tok s 2 = (word (ch ' ') (rest s 2)).1 := tok_eq_word s 2

/-- the word in front of what is left, and what is behind it -/
theorem tok_rest_append {s w x : CString} {uPos : ℕ} (h : rest s uPos = w ++ ch ' ' :: x) (hw : ch ' ' ∉ w)
    (hx : x.head? ≠ some (ch ' ')) : tok s uPos = w ∧ rest s (uPos + 1) = x := by
  rw [tok_eq_word, rest_succ, h, word_append hw hx]
  exact ⟨rfl, rfl⟩

theorem tok_last {s w : CString} {uPos : ℕ} (h : rest s uPos = w) (hw : ch ' ' ∉ w) : tok s uPos = w := by
  rw [tok_eq_word, h, word_of_not_mem hw]

theorem mem_rest {s : CString} {c : UInt8} (hc : c ≠ ch ' ') (uPos : ℕ) :
    c ∈ rest s uPos ↔ c ∈ tok s uPos ∨ c ∈ rest s (uPos + 1) := by
  rw [tok_eq_word, rest_succ, word]
  set x := rest s uPos
  have hdrop : c ∈ x.dropWhile (· ≠ ch ' ') ↔ c ∈ (x.dropWhile (· ≠ ch ' ')).dropWhile (· = ch ' ') := by
    refine ⟨fun h => ?_, fun h => (List.dropWhile_sublist _).subset h⟩
    rw [← List.takeWhile_append_dropWhile (p := (· = ch ' ')) (l := x.dropWhile (· ≠ ch ' ')), List.mem_append] at h
    exact h.resolve_left fun hm => hc (by simpa using List.mem_takeWhile_imp hm)
  rw [← hdrop, ← List.mem_append, List.takeWhile_append_dropWhile]

theorem head_rest (uPos : ℕ) : (rest s (uPos + 1)).head? ≠ some (ch ' ') := by
  rw [rest_succ]
  exact head_word _ _

theorem space_not_mem_tok (uPos : ℕ) : ch ' ' ∉ tok s uPos :=
  fun h => by simpa using List.mem_takeWhile_imp h

theorem head_rest_one : (rest s 1).head? ≠ some (ch ' ') := head_rest s 0

theorem words_append {w x : CString} (hne : w ≠ []) (hw : ch ' ' ∉ w) (hx : x.head? ≠ some (ch ' ')) :
    tok (w ++ ch ' ' :: x) 0 = w ∧ rest (w ++ ch ' ' :: x) 1 = x := by
  refine ⟨token_zero_append hne hw x, ?_⟩
  rw [rest, token_rest hne hw, dropWhile_space hx]

theorem rest_two_of_tok_one {s : CString} (h : tok s 1 = []) : rest s 1 = [] ∧ rest s 2 = [] := by
  have hhead := head_rest_one s
  have hrest : rest s 1 = [] := by
    rw [tok_one, word] at h
    cases hr : rest s 1 with
    | nil => rfl
    | cons c t =>
      have hc : c ≠ ch ' ' := fun hc => hhead (by rw [hr, hc]; rfl)
      rw [hr, List.takeWhile_cons_of_pos (by simpa using hc)] at h
      cases h
  refine ⟨hrest, ?_⟩
  rw [rest_two, hrest]
  rfl

end ZNC.ModuleLine
