/-
A hash that takes its text block by block.

The text may come in parts: what does not fill a block waits for the next part. `digest` is the state behind all whole
blocks of a text, `rest` what waits.

Results:
- `digest_append`, `rest_append`: a text in two parts;
- `digest_cons`, `rest_cons`: the first block;
- `digest_padded`: a text that is filled up to whole blocks.
-/
import Mathlib.Tactic

namespace BlockHash

open List

variable {σ β : Type} (f : σ → List β → σ) (n : ℕ)

/-- the first `k` blocks of a text go in -/
def blocks : ℕ → σ → List β → σ
  | 0, s, _ => s
  | k + 1, s, l => blocks k (f s (l.take n)) (l.drop n)

def digest (s : σ) (l : List β) : σ := blocks f n (l.length / n) s l

def rest (l : List β) : List β := l.drop (l.length / n * n)

theorem blocks_add (j k : ℕ) (s : σ) (l : List β) :
    blocks f n (j + k) s l = blocks f n k (blocks f n j s l) (l.drop (j * n)) := by
  induction j generalizing s l with
  | zero => rw [Nat.zero_add, Nat.zero_mul, drop_zero, blocks]
  | succ j ih => rw [Nat.succ_add, blocks, ih, blocks, drop_drop, Nat.succ_mul, Nat.add_comm n]

theorem blocks_append {k : ℕ} {l : List β} (h : k * n ≤ l.length) (s : σ) (r : List β) :
    blocks f n k s (l ++ r) = blocks f n k s l := by
  induction k generalizing s l with
  | zero => rfl
  | succ k ih =>
    rw [Nat.succ_mul] at h
    have hn : n ≤ l.length := le_trans (Nat.le_add_left _ _) h
    rw [blocks, blocks, take_append_of_le_length hn, drop_append_of_le_length hn, ih]
    rw [length_drop]
    omega

theorem length_rest (l : List β) : (rest n l).length = l.length % n := by
  have hdiv := Nat.div_add_mod' l.length n
  rw [rest, length_drop]
  omega

theorem div_append {n : ℕ} (hn : 0 < n) (l r : List β) :
    (l ++ r).length / n = l.length / n + (rest n l ++ r).length / n := by
  calc (l ++ r).length / n = (l.length % n + r.length + l.length / n * n) / n := by
        have hdiv := Nat.div_add_mod' l.length n
        rw [length_append]
        congr 1
        omega
    _ = _ := by rw [Nat.add_mul_div_right _ _ hn, Nat.add_comm, length_append, length_rest]

theorem drop_append (l r : List β) : (l ++ r).drop (l.length / n * n) = rest n l ++ r :=
  drop_append_of_le_length (Nat.div_mul_le_self _ _)

theorem digest_append {n : ℕ} (hn : 0 < n) (s : σ) (l r : List β) :
    digest f n s (l ++ r) = digest f n (digest f n s l) (rest n l ++ r) := by
  rw [digest, div_append hn, blocks_add, drop_append, blocks_append f n (Nat.div_mul_le_self _ _)]
  rfl

theorem rest_append {n : ℕ} (hn : 0 < n) (l r : List β) : rest n (l ++ r) = rest n (rest n l ++ r) := by
  rw [rest, div_append hn, Nat.add_mul, ← drop_drop, drop_append]
  rfl

theorem digest_of_lt {n : ℕ} {l : List β} (h : l.length < n) (s : σ) : digest f n s l = s := by
  rw [digest, Nat.div_eq_of_lt h]
  rfl

theorem rest_of_lt {n : ℕ} {l : List β} (h : l.length < n) : rest n l = l := by
  rw [rest, Nat.div_eq_of_lt h, Nat.zero_mul, drop_zero]

theorem digest_cons {n : ℕ} (hn : 0 < n) {l : List β} (h : n ≤ l.length) (s : σ) :
    digest f n s l = digest f n (f s (l.take n)) (l.drop n) := by
  have hdiv : l.length / n = (l.length - n) / n + 1 := by
    rw [← Nat.add_div_right _ hn, Nat.sub_add_cancel h]
  rw [digest, hdiv, blocks, digest, length_drop]

theorem rest_cons {n : ℕ} (hn : 0 < n) {l : List β} (h : n ≤ l.length) : rest n l = rest n (l.drop n) := by
  have hdiv : l.length / n = (l.length - n) / n + 1 := by
    rw [← Nat.add_div_right _ hn, Nat.sub_add_cancel h]
  rw [rest, rest, hdiv, length_drop, drop_drop, Nat.add_mul, Nat.one_mul, Nat.add_comm]

theorem digest_padded {n : ℕ} (hn : 0 < n) {l p : List β} {k : ℕ} (h : (rest n l ++ p).length = k * n) (s : σ)
    (junk : List β) : digest f n s (l ++ p) = blocks f n k (digest f n s l) (rest n l ++ p ++ junk) := by
  rw [digest_append f hn, digest, h, Nat.mul_div_cancel _ hn, blocks_append f n h.ge]

end BlockHash
