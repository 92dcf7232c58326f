/-
`CString::StripControls_n` of `src/ZNCString.cpp`: the removal of colour codes and control bytes.

The C++ function is one loop over an `unsigned int` counter with the state of an unfinished colour code in three variables; the
comma of a colour code is kept back until a digit shows that it belongs to the code. `Stripped` says what is to be left of a text:
at each 0x03 the longest text of the colour syntax goes, and of the rest every control byte.

Results:
- `stripped_iff`: what is to be left is one text, computed by `strip`;
- `stripRest_colour`: the code after a 0x03 takes the longest colour, and a comma more if it stands before the next 0x03;
- `stripControls_n_iff`: the loop ends with what is to be left if and only if the text has less than 2^32 bytes and no such comma.
-/
import ZNC.CString

namespace ZNC.CString

open List

/-! ## The loop -/

/-- `colorCode`, `digits` and `comma` -/
structure ColourState where
  colorCode : Bool
  digits : ℕ
  comma : Bool

/-- the comma was not followed by digits -/
def ColourState.pending (st : ColourState) : Bool := st.colorCode && st.digits == 0 && st.comma

/-- the control bytes of the C0 set, and DEL -/
def isControl (c : UInt8) : Bool := c < 0x20 || c == 0x7F

/-- one round of the loop: the new state and what is appended to `sRet` -/
def stripByte (st : ColourState) (c : UInt8) : ColourState × CString :=
  if c = 0x03 then (⟨true, 0, false⟩, [])
  else if st.colorCode && (isdigit c && decide (st.digits < 2)) then ({ st with digits := st.digits + 1 }, [])
  else if st.colorCode && (c == ch ',' && !st.comma) then (⟨true, 0, true⟩, [])
  else
    ({ st with colorCode := false },
      (if st.pending then [ch ','] else []) ++ if isControl c then [] else [c])

/-- the loop with a bound on its rounds; the counter has 32 bits, the length has not -/
def stripLoop (s : CString) : ℕ → UInt32 → ColourState → CString → Option (ColourState × CString)
  | 0, _, _, _ => none
  | fuel + 1, a, st, sRet =>
    if a.toNat < s.length then
      let r := stripByte st (s.getD a.toNat 0)
      stripLoop s fuel (a + 1) r.1 (sRet ++ r.2)
    else some (st, sRet)

/-- what is appended to `sRet` after the loop -/
def stripFinish (r : ColourState × CString) : CString := r.2 ++ if r.1.pending then [ch ','] else []

def stripControls_nFuel (fuel : ℕ) (s : CString) : Option CString :=
  (stripLoop s fuel 0 ⟨false, 0, false⟩ []).map stripFinish

/-- `StripControls_n()`; `none` when the loop does not end -/
def stripControls_n (s : CString) : Option CString := stripControls_nFuel (s.length + 1) s

/-- **From 2^32 bytes on there is no result**: the 32-bit counter never reaches the length. -/
theorem stripControls_nFuel_none (s : CString) (hs : 2 ^ 32 ≤ s.length) (fuel : ℕ) :
    stripControls_nFuel fuel s = none := by
  have hloop : ∀ (fuel : ℕ) (a : UInt32) (st : ColourState) (sRet : CString), stripLoop s fuel a st sRet = none := by
    intro fuel
    induction fuel with
    | zero => intros; rfl
    | succ fuel ih =>
      intro a st sRet
      have ha : a.toNat < s.length := lt_of_lt_of_le a.toNat_lt hs
      rw [stripLoop, if_pos ha]
      exact ih _ _ _
  rw [stripControls_nFuel, hloop, Option.map_none]

/-! ## The rounds on the rest of the text -/

/-- what the loop appends from a state on, to its end -/
def stripRest (st : ColourState) : CString → CString
  | [] => if st.pending then [ch ','] else []
  | c :: s => (stripByte st c).2 ++ stripRest (stripByte st c).1 s

variable {c : UInt8} {s : CString}

theorem stripLoop_eq (hs : s.length < 2 ^ 32) (l : CString) :
    ∀ (a : UInt32) (st : ColourState) (sRet : CString) (fuel : ℕ), s.drop a.toNat = l → a.toNat + l.length = s.length →
      l.length < fuel → (stripLoop s fuel a st sRet).map stripFinish = some (sRet ++ stripRest st l) := by
  induction l with
  | nil =>
    intro a st sRet fuel _ hlen hfuel
    obtain ⟨fuel, rfl⟩ := Nat.exists_eq_add_of_lt hfuel
    simp only [length_nil, Nat.add_zero, Nat.zero_add] at hlen ⊢
    rw [stripLoop, if_neg (by omega)]
    rfl
  | cons c l ih =>
    intro a st sRet fuel hdrop hlen hfuel
    rw [length_cons] at hlen hfuel
    obtain ⟨fuel, rfl⟩ : ∃ n, fuel = n + 1 := ⟨fuel - 1, by omega⟩
    have hget : s.getD a.toNat 0 = c := by
      have h0 := congrArg List.head? hdrop
      rw [head?_drop, head?_cons] at h0
      rw [getD_eq_getElem?_getD, h0, Option.getD_some]
    have hnext : (a + 1).toNat = a.toNat + 1 := by
      rw [UInt32.toNat_add]
      exact Nat.mod_eq_of_lt (by simp only [UInt32.toNat_one]; omega)
    have hdrop' : s.drop (a + 1).toNat = l := by
      rw [hnext, ← drop_drop, hdrop, drop_one, tail_cons]
    rw [stripLoop, if_pos (by omega)]
    simp only [hget]
    rw [ih _ _ _ _ hdrop' (by omega) (by omega), stripRest, append_assoc]

theorem stripControls_n_eq (hs : s.length < 2 ^ 32) :
    stripControls_n s = some (stripRest ⟨false, 0, false⟩ s) := by
  have h := stripLoop_eq hs s 0 ⟨false, 0, false⟩ [] (s.length + 1) rfl (by simp) (by omega)
  rw [stripControls_n, stripControls_nFuel, h, nil_append]

/-! ## What is to be left -/

/-- the colour syntax `[0-9]{0,2}(,[0-9]{1,2})?` -/
def IsColour (t : CString) : Prop :=
  ∃ fore, (∀ c ∈ fore, isdigit c) ∧ fore.length ≤ 2 ∧
    (t = fore ∨ ∃ back, (∀ c ∈ back, isdigit c) ∧ 1 ≤ back.length ∧ back.length ≤ 2 ∧ t = fore ++ ch ',' :: back)

/-- `t` is the longest beginning of the text that is a colour -/
def LongestColour (t s : CString) : Prop :=
  t <+: s ∧ IsColour t ∧ ∀ u, u <+: s → IsColour u → u.length ≤ t.length

/-- what is to be left of a text: no control byte, and after a 0x03 not the longest colour -/
inductive Stripped : CString → CString → Prop
  | nil : Stripped [] []
  | colour {t s r : CString} : LongestColour t (t ++ s) → Stripped s r → Stripped (0x03 :: (t ++ s)) r
  | control {c : UInt8} {s r : CString} : c ≠ 0x03 → isControl c → Stripped s r → Stripped (c :: s) r
  | keep {c : UInt8} {s r : CString} : isControl c = false → Stripped s r → Stripped (c :: s) (c :: r)

/-- after a 0x03 and at most two digits comes a comma, and then the next 0x03 -/
def CommaBeforeColour (s : CString) : Prop :=
  ∃ u fore v, (∀ c ∈ fore, isdigit c) ∧ fore.length ≤ 2 ∧ s = u ++ 0x03 :: (fore ++ ch ',' :: 0x03 :: v)

/-! ## The longest colour -/

/-- the digits at the head of a text, at most `n` of them -/
def takeDigits : ℕ → CString → CString
  | 0, _ => []
  | _ + 1, [] => []
  | n + 1, c :: s => if isdigit c then c :: takeDigits n s else []

def dropDigits : ℕ → CString → CString
  | 0, s => s
  | _ + 1, [] => []
  | n + 1, c :: s => if isdigit c then dropDigits n s else c :: s

theorem takeDigits_append_dropDigits (n : ℕ) (s : CString) : takeDigits n s ++ dropDigits n s = s := by
  fun_induction takeDigits n s <;> simp_all [dropDigits]

theorem length_takeDigits_le (n : ℕ) (s : CString) : (takeDigits n s).length ≤ n := by
  fun_induction takeDigits n s <;> simp_all

theorem isdigit_of_mem_takeDigits {n : ℕ} : ∀ c ∈ takeDigits n s, isdigit c := by
  fun_induction takeDigits n s <;> simp_all

theorem length_takeDigits {n : ℕ} {r : CString} (h : dropDigits n s = c :: r) (hc : isdigit c) :
    (takeDigits n s).length = n := by
  fun_induction takeDigits n s <;> simp_all [dropDigits]

theorem takeDigits_append {fore : CString} (hdigits : ∀ c ∈ fore, isdigit c) {n : ℕ}
    (hn : fore.length ≤ n) (s : CString) :
    takeDigits n (fore ++ s) = fore ++ takeDigits (n - fore.length) s := by
  induction fore generalizing n with
  | nil => simp
  | cons c fore ih =>
    obtain ⟨n, rfl⟩ : ∃ m, n = m + 1 := ⟨n - 1, by rw [length_cons] at hn; omega⟩
    rw [length_cons] at hn
    rw [cons_append, takeDigits, if_pos (hdigits c (by simp)),
      ih (fun b hb => hdigits b (mem_cons_of_mem _ hb)) (by omega), length_cons, Nat.add_sub_add_right, cons_append]

theorem takeDigits_cons_of_not (hc : isdigit c = false) (n : ℕ) (s : CString) :
    takeDigits n (c :: s) = [] := by
  cases n with
  | zero => rfl
  | succ n => rw [takeDigits, if_neg (by simp [hc])]

theorem not_isdigit_comma : isdigit (ch ',') = false := by decide

theorem takeDigits_comma {fore : CString} (hdigits : ∀ c ∈ fore, isdigit c) (hlen : fore.length ≤ 2) (s : CString) :
    takeDigits 2 (fore ++ ch ',' :: s) = fore := by
  rw [takeDigits_append hdigits hlen, takeDigits_cons_of_not not_isdigit_comma, append_nil]

theorem dropDigits_comma {fore : CString} (hdigits : ∀ c ∈ fore, isdigit c) (hlen : fore.length ≤ 2) (s : CString) :
    dropDigits 2 (fore ++ ch ',' :: s) = ch ',' :: s := by
  have h := takeDigits_append_dropDigits 2 (fore ++ ch ',' :: s)
  rw [takeDigits_comma hdigits hlen] at h
  exact append_cancel_left h

/-- the digits of the background, with their comma -/
def backOf : CString → CString
  | [] => []
  | c :: s => if c = ch ',' ∧ takeDigits 2 s ≠ [] then c :: takeDigits 2 s else []

def colourOf (s : CString) : CString := takeDigits 2 s ++ backOf (dropDigits 2 s)

def dropColour (s : CString) : CString := s.drop (colourOf s).length

theorem backOf_isPrefix (s : CString) : backOf s <+: s := by
  cases s with
  | nil => exact prefix_rfl
  | cons c s =>
    rw [backOf]
    split
    · exact cons_prefix_cons.2 ⟨rfl, ⟨_, takeDigits_append_dropDigits 2 s⟩⟩
    · exact nil_prefix

theorem colourOf_isPrefix (s : CString) : colourOf s <+: s := by
  obtain ⟨r, hr⟩ := backOf_isPrefix (dropDigits 2 s)
  exact ⟨r, by rw [colourOf, append_assoc, hr, takeDigits_append_dropDigits]⟩

theorem colourOf_append_dropColour (s : CString) : colourOf s ++ dropColour s = s := by
  obtain ⟨r, hr⟩ := colourOf_isPrefix s
  have hdrop : dropColour s = r := by
    rw [dropColour]
    nth_rewrite 2 [← hr]
    exact drop_left
  rw [hdrop, hr]

theorem isColour_colourOf (s : CString) : IsColour (colourOf s) := by
  refine ⟨takeDigits 2 s, isdigit_of_mem_takeDigits, length_takeDigits_le 2 s, ?_⟩
  rw [colourOf]
  cases dropDigits 2 s with
  | nil => exact .inl (by rw [backOf, append_nil])
  | cons c r =>
    rw [backOf]
    split
    · case isTrue h =>
      refine .inr ⟨takeDigits 2 r, isdigit_of_mem_takeDigits, ?_, length_takeDigits_le 2 r, by rw [h.1]⟩
      exact length_pos_iff.2 h.2
    · exact .inl (append_nil _)

theorem longestColour_colourOf (s : CString) : LongestColour (colourOf s) s := by
  refine ⟨colourOf_isPrefix s, isColour_colourOf s, ?_⟩
  rintro u ⟨v, rfl⟩ ⟨fore, hfore, hlen, rfl | ⟨back, hback, hpos, hlen', rfl⟩⟩
  · rw [colourOf, takeDigits_append hfore hlen]
    simp only [length_append]
    omega
  · have heq : fore ++ ch ',' :: back ++ v = fore ++ ch ',' :: (back ++ v) := by
      rw [append_assoc, cons_append]
    have htake : takeDigits 2 (back ++ v) = back ++ takeDigits (2 - back.length) v := takeDigits_append hback hlen' v
    have hne : takeDigits 2 (back ++ v) ≠ [] := by
      rw [htake]
      exact fun h => absurd (append_eq_nil_iff.1 h).1 (length_pos_iff.1 hpos)
    rw [heq, colourOf, takeDigits_comma hfore hlen, dropDigits_comma hfore hlen, backOf, if_pos ⟨rfl, hne⟩, htake]
    simp only [length_append, length_cons]
    omega

theorem LongestColour.unique {t u : CString} (ht : LongestColour t s) (hu : LongestColour u s) : t = u := by
  have hle : t.length ≤ u.length := hu.2.2 t ht.1 ht.2.1
  exact List.IsPrefix.eq_of_length_le (prefix_of_prefix_length_le ht.1 hu.1 hle) (ht.2.2 u hu.1 hu.2.1)

theorem length_dropColour_le (s : CString) : (dropColour s).length ≤ s.length := by
  rw [dropColour, length_drop]
  exact Nat.sub_le _ _

/-! ## What is to be left, computed -/

def strip : CString → CString
  | [] => []
  | c :: s =>
    if c = 0x03 then strip (dropColour s)
    else if isControl c then strip s
    else c :: strip s
termination_by s => s.length
decreasing_by
  · exact Nat.lt_succ_of_le (length_dropColour_le s)
  · exact Nat.lt_succ_self _
  · exact Nat.lt_succ_self _

theorem strip_nil : strip [] = [] := by rw [strip]

theorem strip_colour (s : CString) : strip (0x03 :: s) = strip (dropColour s) := by rw [strip, if_pos rfl]

theorem strip_control (h3 : c ≠ 0x03) (hc : isControl c) (s : CString) : strip (c :: s) = strip s := by
  rw [strip, if_neg h3, if_pos hc]

theorem ne_three_of_not_control (hc : isControl c = false) : c ≠ 0x03 := by
  rintro rfl
  exact absurd hc (by decide)

theorem strip_keep (hc : isControl c = false) (s : CString) : strip (c :: s) = c :: strip s := by
  rw [strip, if_neg (ne_three_of_not_control hc), if_neg (by simp [hc])]

theorem stripped_strip (s : CString) : Stripped s (strip s) := by
  fun_induction strip s with
  | case1 => exact .nil
  | case2 s ih =>
    have h := Stripped.colour (t := colourOf s) (by rw [colourOf_append_dropColour]; exact longestColour_colourOf s) ih
    rwa [colourOf_append_dropColour] at h
  | case3 c s h3 hc ih => exact .control h3 hc ih
  | case4 c s h3 hc ih => exact .keep (by simpa using hc) ih

theorem stripped_iff {r : CString} : Stripped s r ↔ r = strip s := by
  constructor
  · intro h
    induction h with
    | nil => exact strip_nil.symm
    | @colour t s r ht _ ih =>
      have hdrop : dropColour (t ++ s) = s := by
        have h := colourOf_append_dropColour (t ++ s)
        rw [(longestColour_colourOf (t ++ s)).unique ht] at h
        exact append_cancel_left h
      rw [strip_colour, hdrop, ih]
    | control h3 hc _ ih => rw [strip_control h3 hc, ih]
    | keep hc _ ih => rw [strip_keep hc, ih]
  · rintro rfl
    exact stripped_strip s

/-! ## The rounds after a colour byte -/

theorem stripRest_off (d : ℕ) (k : Bool) (s : CString) : stripRest ⟨false, d, k⟩ s = stripRest ⟨false, 0, false⟩ s := by
  induction s generalizing d k with
  | nil => rfl
  | cons c s ih =>
    rw [stripRest, stripRest]
    by_cases h3 : c = 0x03
    · simp only [stripByte, if_pos h3]
    · simp only [stripByte, if_neg h3, ColourState.pending, Bool.false_and, Bool.false_eq_true, if_false]
      rw [ih d k]

theorem stripRest_three (st : ColourState) (s : CString) : stripRest st (0x03 :: s) = stripRest ⟨true, 0, false⟩ s := by
  rw [stripRest, stripByte, if_pos rfl, nil_append]

theorem stripRest_plain (h3 : c ≠ 0x03) (s : CString) :
    stripRest ⟨false, 0, false⟩ (c :: s) = (if isControl c then [] else [c]) ++ stripRest ⟨false, 0, false⟩ s := by
  rw [stripRest, stripByte, if_neg h3]
  rfl

theorem stripRest_end {st : ColourState} (h3 : s.head? ≠ some 0x03 ∨ st.pending = false)
    (hdigit : ∀ c ∈ s.head?, isdigit c → 2 ≤ st.digits) (hcomma : ∀ c ∈ s.head?, c = ch ',' → st.comma = true) :
    stripRest st s = (if st.pending then [ch ','] else []) ++ stripRest ⟨false, 0, false⟩ s := by
  cases s with
  | nil => exact (append_nil _).symm
  | cons c s =>
    by_cases hc : c = 0x03
    · have hpend : st.pending = false := by simpa [hc] using h3
      rw [hc, stripRest_three, stripRest_three, hpend]
      rfl
    · have h1 : (st.colorCode && (isdigit c && decide (st.digits < 2))) = false := by
        cases hd : isdigit c with
        | false => simp
        | true => simp [Nat.not_lt.2 (hdigit c rfl hd)]
      have h2 : (st.colorCode && (c == ch ',' && !st.comma)) = false := by
        by_cases hk : c = ch ','
        · simp [hcomma c rfl hk]
        · simp [hk]
      rw [stripRest, stripByte, if_neg hc, h1, h2, if_neg Bool.false_ne_true, if_neg Bool.false_ne_true,
        stripRest_plain hc, stripRest_off, append_assoc]

theorem stripRest_digits {n d : ℕ} (hd : d + n = 2) (k : Bool) (s : CString) :
    stripRest ⟨true, d, k⟩ s = stripRest ⟨true, d + (takeDigits n s).length, k⟩ (dropDigits n s) := by
  induction n generalizing d s with
  | zero => rfl
  | succ n ih =>
    cases s with
    | nil => rfl
    | cons c s =>
      rw [takeDigits, dropDigits]
      by_cases hc : isdigit c = true
      · have h3 : c ≠ 0x03 := by rintro rfl; exact absurd hc (by decide)
        have hlt : d < 2 := by omega
        have hround : stripByte ⟨true, d, k⟩ c = (⟨true, d + 1, k⟩, []) := by
          rw [stripByte, if_neg h3, if_pos (by simp [hc, hlt])]
        rw [if_pos hc, if_pos hc, stripRest, hround, nil_append, ih (by omega), length_cons]
        ring_nf
      · rw [if_neg hc, if_neg hc]
        rfl

theorem stripRest_comma {d : ℕ} (s : CString) :
    stripRest ⟨true, d, false⟩ (ch ',' :: s) = stripRest ⟨true, 0, true⟩ s := by
  have hround : stripByte ⟨true, d, false⟩ (ch ',') = (⟨true, 0, true⟩, []) := by
    rw [stripByte, if_neg (by decide), if_neg (by simp [not_isdigit_comma]), if_pos (by simp)]
  rw [stripRest, hround, nil_append]

theorem stripRest_lost {v : CString} (h : dropDigits 2 s = ch ',' :: 0x03 :: v) :
    stripRest ⟨true, 0, false⟩ s = stripRest ⟨false, 0, false⟩ (0x03 :: v) := by
  rw [stripRest_digits (n := 2) rfl, h, stripRest_comma, stripRest_three, stripRest_three]

theorem two_le_of_head {n : ℕ} :
    ∀ c ∈ (dropDigits n s).head?, isdigit c → n ≤ (takeDigits n s).length := by
  intro c hc hdigit
  obtain ⟨r, hr⟩ := head?_eq_some_iff.1 hc
  exact (length_takeDigits hr hdigit).ge

theorem stripRest_colour (h : ∀ v, dropDigits 2 s ≠ ch ',' :: 0x03 :: v) :
    stripRest ⟨true, 0, false⟩ s = stripRest ⟨false, 0, false⟩ (dropColour s) := by
  have hdrop : dropDigits 2 s = backOf (dropDigits 2 s) ++ dropColour s := by
    have h1 := colourOf_append_dropColour s
    nth_rewrite 3 [← takeDigits_append_dropDigits 2 s] at h1
    rw [colourOf, append_assoc] at h1
    exact (append_cancel_left h1).symm
  rw [stripRest_digits (n := 2) rfl, Nat.zero_add]
  have hhead := two_le_of_head (n := 2) (s := s)
  rcases hs : dropDigits 2 s with - | ⟨c, r⟩
  · rw [hs, backOf, nil_append] at hdrop
    rw [← hdrop, stripRest, stripRest]
    simp [ColourState.pending]
  · rw [hs] at hhead
    by_cases hc : c = ch ','
    · subst hc
      rw [stripRest_comma]
      by_cases hback : takeDigits 2 r = []
      · rw [hs, backOf, if_neg (by simp [hback]), nil_append] at hdrop
        have h3 : r.head? ≠ some 0x03 := by
          intro h3
          obtain ⟨v, hv⟩ := head?_eq_some_iff.1 h3
          exact h v (by rw [hs, hv])
        have hdigit : ∀ b ∈ r.head?, isdigit b → 2 ≤ 0 := by
          intro b hb hdig
          obtain ⟨r', hr'⟩ := head?_eq_some_iff.1 hb
          rw [hr', takeDigits, if_pos hdig] at hback
          exact absurd hback (cons_ne_nil _ _)
        rw [stripRest_end (.inl h3) hdigit (fun _ _ _ => rfl), ← hdrop, stripRest_plain (by decide)]
        rfl
      · rw [hs, backOf, if_pos ⟨rfl, hback⟩] at hdrop
        have hdrop' : dropDigits 2 r = dropColour s := by
          have h1 := (List.cons.inj hdrop).2
          nth_rewrite 1 [← takeDigits_append_dropDigits 2 r] at h1
          exact append_cancel_left h1
        have hpend : ColourState.pending ⟨true, (takeDigits 2 r).length, true⟩ = false := by
          simp [ColourState.pending, hback]
        rw [stripRest_digits (n := 2) rfl, Nat.zero_add, stripRest_end (.inr hpend) two_le_of_head (fun _ _ _ => rfl),
          hpend, hdrop']
        rfl
    · rw [hs, backOf, if_neg (by simp [hc]), nil_append] at hdrop
      have hpend : ColourState.pending ⟨true, (takeDigits 2 s).length, false⟩ = false := by simp [ColourState.pending]
      rw [stripRest_end (.inr hpend) hhead (fun b hb hbc => absurd (Option.some.inj hb ▸ hbc) hc), hpend, ← hdrop]
      rfl

/-! ## The comma before a colour byte -/

theorem commaBeforeColour_cons (hc : c ≠ 0x03) (s : CString) :
    CommaBeforeColour (c :: s) ↔ CommaBeforeColour s := by
  constructor
  · rintro ⟨u, fore, v, hdigits, hlen, heq⟩
    cases u with
    | nil => exact absurd (List.cons.inj heq).1 hc
    | cons b u => exact ⟨u, fore, v, hdigits, hlen, (List.cons.inj heq).2⟩
  · rintro ⟨u, fore, v, hdigits, hlen, rfl⟩
    exact ⟨c :: u, fore, v, hdigits, hlen, rfl⟩

theorem commaBeforeColour_append {t : CString} (ht : 0x03 ∉ t) (s : CString) :
    CommaBeforeColour (t ++ s) ↔ CommaBeforeColour s := by
  induction t with
  | nil => rfl
  | cons c t ih =>
    rw [mem_cons, not_or] at ht
    exact (commaBeforeColour_cons (Ne.symm ht.1) (t ++ s)).trans (ih ht.2)

theorem commaBeforeColour_three (s : CString) :
    CommaBeforeColour (0x03 :: s) ↔ (∃ v, dropDigits 2 s = ch ',' :: 0x03 :: v) ∨ CommaBeforeColour s := by
  constructor
  · rintro ⟨u, fore, v, hdigits, hlen, heq⟩
    cases u with
    | nil =>
      refine .inl ⟨v, ?_⟩
      rw [(List.cons.inj heq).2]
      exact dropDigits_comma hdigits hlen _
    | cons b u => exact .inr ⟨u, fore, v, hdigits, hlen, (List.cons.inj heq).2⟩
  · rintro (⟨v, hv⟩ | ⟨u, fore, v, hdigits, hlen, rfl⟩)
    · refine ⟨[], takeDigits 2 s, v, isdigit_of_mem_takeDigits, length_takeDigits_le 2 s, ?_⟩
      rw [← hv, takeDigits_append_dropDigits, nil_append]
    · exact ⟨0x03 :: u, fore, v, hdigits, hlen, rfl⟩

theorem three_notMem_colourOf (s : CString) : 0x03 ∉ colourOf s := by
  have hdigit : ∀ {n : ℕ} {r : CString}, 0x03 ∉ takeDigits n r :=
    fun hmem => absurd (isdigit_of_mem_takeDigits _ hmem) (by decide)
  intro hmem
  rcases mem_append.1 hmem with hmem | hmem
  · exact hdigit hmem
  · cases hr : dropDigits 2 s with
    | nil => rw [hr, backOf] at hmem; exact nomatch hmem
    | cons c r =>
      rw [hr, backOf] at hmem
      split at hmem
      · case isTrue h =>
        rcases mem_cons.1 hmem with heq | hmem
        · exact absurd (heq.trans h.1) (by decide)
        · exact hdigit hmem
      · exact nomatch hmem

theorem commaBeforeColour_dropColour (s : CString) : CommaBeforeColour (dropColour s) ↔ CommaBeforeColour s := by
  have h := commaBeforeColour_append (three_notMem_colourOf s) (dropColour s)
  rw [colourOf_append_dropColour] at h
  exact h.symm

theorem not_commaBeforeColour_nil : ¬CommaBeforeColour [] := by
  rintro ⟨u, fore, v, -, -, heq⟩
  cases u <;> exact absurd heq (by simp)

/-! ## The loop against what is to be left -/

theorem stripRest_spec (s : CString) : (stripRest ⟨false, 0, false⟩ s).length ≤ (strip s).length ∧
    (stripRest ⟨false, 0, false⟩ s = strip s ↔ ¬CommaBeforeColour s) := by
  match s with
  | [] => exact ⟨Nat.zero_le _, iff_of_true strip_nil.symm not_commaBeforeColour_nil⟩
  | c :: s =>
    by_cases h3 : c = 0x03
    · subst h3
      rw [stripRest_three, strip_colour, commaBeforeColour_three]
      by_cases hlost : ∃ v, dropDigits 2 s = ch ',' :: 0x03 :: v
      · -- the text that is left lacks the comma
        obtain ⟨v, hv⟩ := hlost
        have hdrop : dropColour s = ch ',' :: 0x03 :: v := by
          have h := colourOf_append_dropColour s
          rw [colourOf, hv, backOf, if_neg (by simp [takeDigits_cons_of_not (show isdigit 0x03 = false by decide)]),
            append_nil] at h
          exact append_cancel_left (h.trans (takeDigits_append_dropDigits 2 s).symm) |>.trans hv
        have hdec : v.length < s.length := by
          have h := congrArg List.length (takeDigits_append_dropDigits 2 s)
          rw [hv, length_append, length_cons, length_cons] at h
          omega
        have hle := (stripRest_spec (0x03 :: v)).1
        have hlt : (stripRest ⟨true, 0, false⟩ s).length < (strip (dropColour s)).length := by
          rw [stripRest_lost hv, hdrop, strip_keep (by decide), length_cons]
          exact Nat.lt_succ_of_le hle
        exact ⟨hlt.le, iff_of_false (fun h => absurd (congrArg List.length h) hlt.ne) (not_not_intro (.inl ⟨v, hv⟩))⟩
      · have hdec : (dropColour s).length ≤ s.length := length_dropColour_le s
        have ih := stripRest_spec (dropColour s)
        rw [stripRest_colour (fun v hv => hlost ⟨v, hv⟩), or_iff_right hlost, ← commaBeforeColour_dropColour s]
        exact ih
    · have ih := stripRest_spec s
      rw [stripRest_plain h3, commaBeforeColour_cons h3]
      cases hc : isControl c with
      | true =>
        rw [strip_control h3 hc]
        exact ih
      | false =>
        rw [strip_keep hc]
        simp only [Bool.false_eq_true, if_false, singleton_append, length_cons, List.cons.injEq, true_and]
        exact ⟨Nat.succ_le_succ ih.1, ih.2⟩
termination_by s.length

/-- **`StripControls_n`** ends and leaves what is to be left, if and only if the text has less than 2^32 bytes and no comma
stands between a colour code and the next one. -/
theorem stripControls_n_iff (s : CString) :
    (∃ r, stripControls_n s = some r ∧ Stripped s r) ↔ s.length < 2 ^ 32 ∧ ¬CommaBeforeColour s := by
  by_cases hs : s.length < 2 ^ 32
  · rw [stripControls_n_eq hs, and_iff_right hs]
    calc (∃ r, some (stripRest ⟨false, 0, false⟩ s) = some r ∧ Stripped s r)
      _ ↔ Stripped s (stripRest ⟨false, 0, false⟩ s) := by simp
      _ ↔ stripRest ⟨false, 0, false⟩ s = strip s := stripped_iff
      _ ↔ ¬CommaBeforeColour s := (stripRest_spec s).2
  · refine iff_of_false ?_ (fun h => hs h.1)
    rintro ⟨r, hr, -⟩
    rw [stripControls_n, stripControls_nFuel_none s (not_lt.1 hs)] at hr
    exact absurd hr (by simp)

/-- two colour codes with a comma between them: nothing is left of it -/
theorem stripControls_n_comma :
    stripControls_n (0x03 :: (ch ',' :: [0x03])) = some [] ∧ ¬Stripped (0x03 :: (ch ',' :: [0x03])) [] := by
  refine ⟨by decide, ?_⟩
  rw [stripped_iff]
  have hdrop : dropColour (ch ',' :: [0x03]) = ch ',' :: [0x03] := by decide
  rw [strip_colour, hdrop, strip_keep (by decide)]
  exact (cons_ne_nil _ _).symm

example : stripControls_n (0x03 :: lit "03,4,test") = some (lit ",test") := by decide

end ZNC.CString
