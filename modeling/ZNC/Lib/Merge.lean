/-
Merging a list into another one: each new entry changes the entry that it matches, or takes its place at the end, or is added.

`place` says what becomes of a matching entry, nothing if it has to go; `fresh` is what is added for a new entry, if anything.

Results:
- `merge_eq`: the merged list, if no entry is matched twice.
-/
import Mathlib.Tactic

namespace Merge

open List

variable {α β : Type} (r : β → α → Bool) (place : α → β → Option α) (fresh : β → Option α)

/-- one new entry -/
def insertInto (b : β) : List α → List α
  | [] => (fresh b).toList
  | a :: l =>
    if r b a then
      match place a b with
      | some a' => a' :: l
      | none => l ++ (fresh b).toList
    else a :: insertInto b l

def merge (l : List α) (bs : List β) : List α := bs.foldl (fun l b => insertInto r place fresh b l) l

/-- what becomes of an entry -/
def stay (bs : List β) (a : α) : Option α :=
  match bs.find? fun b => r b a with
  | none => some a
  | some b => place a b

/-- what a new entry adds -/
def added (l : List α) (b : β) : Option α :=
  match l.find? (r b) with
  | none => fresh b
  | some a => if (place a b).isSome then none else fresh b

variable {r place fresh}

theorem insertInto_none {b : β} {l : List α} (h : ∀ a ∈ l, ¬r b a) :
    insertInto r place fresh b l = l ++ (fresh b).toList := by
  induction l with
  | nil => rfl
  | cons a l ih =>
    obtain ⟨ha, hl⟩ := forall_mem_cons.1 h
    rw [insertInto, if_neg ha, ih hl, cons_append]

theorem insertInto_some {b : β} {l l' : List α} {a : α} (h : ∀ a ∈ l, ¬r b a) (ha : r b a) :
    insertInto r place fresh b (l ++ a :: l') =
      l ++ (place a b).toList ++ l' ++ (if (place a b).isSome then none else fresh b).toList := by
  induction l with
  | nil =>
    rw [nil_append, insertInto, if_pos ha]
    cases place a b <;> simp
  | cons c l ih =>
    obtain ⟨hc, hl⟩ := forall_mem_cons.1 h
    rw [cons_append, insertInto, if_neg hc, ih hl, cons_append, cons_append, cons_append]

/-- **The merged list:** what becomes of the old entries, and what the new ones add. -/
theorem merge_eq (hplace : ∀ a b a', place a b = some a' → ∀ c, r c a' = r c a) {l : List α}
    (hl : l.Pairwise fun a a' => ∀ b, ¬(r b a ∧ r b a')) {bs : List β}
    (hbs : bs.Pairwise fun b b' => (∀ a, ¬(r b a ∧ r b' a)) ∧ ∀ a, fresh b = some a → ¬r b' a) :
    merge r place fresh l bs = l.filterMap (stay r place bs) ++ bs.filterMap (added r place fresh l) := by
  induction bs using List.reverseRecOn with
  | nil =>
    have hsame : stay r place [] = some := rfl
    rw [hsame, filterMap_some, filterMap_nil, append_nil]
    rfl
  | append_singleton bs b ih =>
    obtain ⟨hbs, -, hb⟩ := pairwise_append.1 hbs
    have hb (b' : β) (hb' : b' ∈ bs) := hb b' hb' b (mem_singleton.2 rfl)
    -- what `b` does not match stays as it was
    have hstay {a : α} (ha : ¬r b a) : stay r place (bs ++ [b]) a = stay r place bs a := by
      rw [stay, stay, find?_append]
      cases bs.find? fun b => r b a <;> simp [ha]
    have hkept {l' : List α} (h : ∀ a ∈ l', ¬r b a) : ∀ a ∈ l'.filterMap (stay r place bs), ¬r b a := by
      intro a' ha'
      obtain ⟨a, ha, hsome⟩ := mem_filterMap.1 ha'
      have hsame : r b a' = r b a := by
        rw [stay] at hsome
        split at hsome
        · rw [Option.some.inj hsome]
        · exact hplace a _ a' hsome b
      rw [hsame]
      exact h a ha
    have hcongr {l' : List α} (h : ∀ a ∈ l', ¬r b a) :
        l'.filterMap (stay r place (bs ++ [b])) = l'.filterMap (stay r place bs) :=
      filterMap_congr fun a ha => hstay (h a ha)
    have hnew : ∀ a ∈ bs.filterMap (added r place fresh l), ¬r b a := by
      intro a ha
      obtain ⟨b', hb', hsome⟩ := mem_filterMap.1 ha
      have hfresh : fresh b' = some a := by
        rw [added] at hsome
        split at hsome
        · exact hsome
        · split at hsome
          · cases hsome
          · exact hsome
      exact (hb b' hb').2 a hfresh
    rw [merge, foldl_append, foldl_cons, foldl_nil]
    rw [merge] at ih
    rw [ih hbs, filterMap_append (l := bs)]
    by_cases hmatch : ∃ a ∈ l, r b a
    · obtain ⟨a, ha, hra⟩ := hmatch
      obtain ⟨l₁, l₂, rfl⟩ := append_of_mem ha
      obtain ⟨-, hl₂, hl₁⟩ := pairwise_append.1 hl
      have h₁ : ∀ c ∈ l₁, ¬r b c := fun c hc hrc => hl₁ c hc a mem_cons_self b ⟨hrc, hra⟩
      have h₂ : ∀ c ∈ l₂, ¬r b c := fun c hc hrc => (pairwise_cons.1 hl₂).1 c hc b ⟨hra, hrc⟩
      have hnone : bs.find? (fun b => r b a) = none := by
        rw [find?_eq_none]
        exact fun b' hb' hr => (hb b' hb').1 a ⟨hr, hra⟩
      have ha₁ : stay r place bs a = some a := by rw [stay, hnone]
      have ha₂ : stay r place (bs ++ [b]) a = place a b := by
        rw [stay, find?_append, hnone]
        simp [hra]
      have hadd : added r place fresh (l₁ ++ a :: l₂) b = if (place a b).isSome then none else fresh b := by
        have hfind : (l₁ ++ a :: l₂).find? (r b) = some a := by
          rw [find?_append, find?_eq_none.2 h₁, Option.none_or, find?_cons_of_pos hra]
        rw [added, hfind]
      have hone : [b].filterMap (added r place fresh (l₁ ++ a :: l₂)) =
          (if (place a b).isSome then none else fresh b).toList := by
        rw [← hadd]
        cases hb : added r place fresh (l₁ ++ a :: l₂) b <;> simp [hb]
      have hold : (l₁ ++ a :: l₂).filterMap (stay r place bs) =
          l₁.filterMap (stay r place bs) ++ a :: l₂.filterMap (stay r place bs) := by
        rw [filterMap_append, filterMap_cons_some ha₁]
      have hafter : (l₁ ++ a :: l₂).filterMap (stay r place (bs ++ [b])) =
          l₁.filterMap (stay r place bs) ++ (place a b).toList ++ l₂.filterMap (stay r place bs) := by
        rw [filterMap_append, hcongr h₁, append_assoc, filterMap_cons, ha₂, hcongr h₂]
        cases place a b <;> rfl
      rw [hold, hafter, hone, append_assoc, cons_append, insertInto_some (hkept h₁) hra]
      simp only [append_assoc]
    · have hmatch : ∀ a ∈ l, ¬r b a := fun a ha hra => hmatch ⟨a, ha, hra⟩
      have hall : ∀ a ∈ l.filterMap (stay r place bs) ++ bs.filterMap (added r place fresh l), ¬r b a := by
        intro a ha
        rcases mem_append.1 ha with ha | ha
        · exact hkept hmatch a ha
        · exact hnew a ha
      have hadd : added r place fresh l b = fresh b := by rw [added, find?_eq_none.2 hmatch]
      have hone : [b].filterMap (added r place fresh l) = (fresh b).toList := by
        rw [← hadd]
        cases hb : added r place fresh l b <;> simp [hb]
      rw [insertInto_none hall, hcongr hmatch, hone, append_assoc]

end Merge
