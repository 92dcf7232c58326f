/-
`CString::WildCmp` of `src/ZNCString.cpp` against what a pattern means: its letters are matched by the parts of a split of the text.

The loop goes back to one place only, the one behind the last star, with the text from one letter later on. This is enough: what an
earlier star could take more, the last one can take too.

Results:
- `wildLoop_iff`: the second loop, from a pattern and a text of which a fixed beginning was matched;
- `wildCmp_iff`: the whole function, with and without regard to letter case.
-/
import ZNC.Cidr
import ZNC.Lib.Wildcards

namespace ZNC

open CString Wildcards List

inductive CaseSensitivity where
  | CaseInsensitive
  | CaseSensitive
deriving DecidableEq

/-- `WildCmp(sWild, sString, cs)` -/
def CString.wildCmpCase (sWild sString : CString) (cs : CaseSensitivity) : Bool :=
  let sWld := if cs = .CaseSensitive then sWild else sWild.asLower
  let sStr := if cs = .CaseSensitive then sString else sString.asLower
  wildCmp sWld sStr

/-- a text matches a pattern, with `*` and `?` -/
abbrev WildMatches (sWild sString : CString) : Prop := Matches (ch '*') (ch '?') sWild sString

/-- `mp` begins with what was matched since `cp` -/
def Behind (wild p mp cp : CString) : Prop :=
  ∃ u w, mp = u ++ wild ∧ cp = (w ++ p).tail ∧ Fixed (ch '*') u ∧ WildMatches u w

theorem Behind.start (wild p : CString) : Behind wild p wild p.tail :=
  ⟨[], [], rfl, rfl, not_mem_nil, matches_nil.2 rfl⟩

theorem Behind.step {w c : UInt8} {wild p mp cp : CString} (h : Behind (w :: wild) (c :: p) mp cp) (hstar : w ≠ ch '*')
    (hletter : w = c ∨ w = ch '?') : Behind wild p mp cp := by
  obtain ⟨u, t, rfl, rfl, hfixed, hu⟩ := h
  refine ⟨u ++ [w], t ++ [c], by simp, by simp, ?_, ?_⟩
  · intro hmem
    rcases mem_append.1 hmem with hmem | hmem
    · exact hfixed hmem
    · exact hstar (mem_singleton.1 hmem).symm
  · exact matches_append.2 ⟨t, [c], rfl, hu, (matches_letter hstar).2 ⟨c, [], rfl, hletter, matches_nil.2 rfl⟩⟩

theorem onlyStars_iff (wild : CString) : onlyStars wild = true ↔ WildMatches wild [] := by
  induction wild with
  | nil => exact iff_of_true rfl (matches_nil.2 rfl)
  | cons w wild ih =>
    by_cases hw : w = ch '*'
    · have hskip : onlyStars (ch '*' :: wild) = onlyStars wild := by
        rw [onlyStars, onlyStars, dropWhile_cons_of_pos (by simp)]
      rw [hw, hskip]
      exact ih.trans matches_star_nil.symm
    · have hno : ¬WildMatches (w :: wild) [] := by
        intro h
        obtain ⟨b, t, heq, -⟩ := (matches_letter hw).1 h
        cases heq
      refine iff_of_false ?_ hno
      rw [onlyStars, dropWhile_cons_of_neg (by simpa using hw)]
      simp

theorem wildLoop_iff {wild p mp cp : CString} (h : Behind wild p mp cp) :
    wildLoop wild p mp cp = true ↔ WildMatches wild p ∨ WildMatches (ch '*' :: mp) cp := by
  -- going back one place
  have hback {mp cp : CString} (ih : Behind mp cp mp cp.tail → (wildLoop mp cp mp cp.tail = true ↔
      WildMatches mp cp ∨ WildMatches (ch '*' :: mp) cp.tail)) :
      wildLoop mp cp mp cp.tail = true ↔ WildMatches (ch '*' :: mp) cp := by
    refine (ih (Behind.start mp cp)).trans ?_
    cases cp with
    | nil =>
      have hnil : WildMatches (ch '*' :: mp) [] ↔ WildMatches mp [] := matches_star_nil
      rw [tail_nil, hnil, or_self]
    | cons c cp => exact matches_star_cons.symm
  fun_induction wildLoop wild p mp cp with
  | case1 wild mp cp =>
    -- the text is over, and a later place has too little of it
    obtain ⟨u, w, rfl, rfl, hfixed, hu⟩ := h
    rw [onlyStars_iff, append_nil]
    refine (or_iff_left_of_imp fun hlater => ?_).symm
    have hlength := length_of_fixed hfixed hu
    cases w with
    | nil =>
      obtain rfl : u = [] := length_eq_zero_iff.1 hlength.symm
      exact matches_star_nil.1 hlater
    | cons c w =>
      refine absurd hlater (not_matches_of_short hfixed ?_)
      rw [tail_cons, ← hlength]
      exact Nat.lt_succ_self _
  | case2 mp cp c p ih =>
    have hno : ¬WildMatches [] (c :: p) := fun hnil => cons_ne_nil c p (matches_nil.1 hnil)
    rw [hback ih, or_iff_right hno]
  | case3 mp cp c p =>
    exact iff_of_true rfl (.inl matches_only_star)
  | case4 mp cp c p wild hne ih =>
    refine (ih (Behind.start wild (c :: p))).trans (matches_star_cons.symm.trans ?_)
    refine (or_iff_left_of_imp fun hlater => ?_).symm
    obtain ⟨u, w, rfl, rfl, hfixed, hu⟩ := h
    exact matches_later hfixed hu hlater
  | case5 mp cp c p w wild hstar hletter ih =>
    have hmatch : WildMatches (w :: wild) (c :: p) ↔ WildMatches wild p := by
      refine (matches_letter hstar).trans ?_
      constructor
      · rintro ⟨b, t, heq, -, ht⟩
        rwa [(List.cons.inj heq).2]
      · exact fun ht => ⟨c, p, rfl, hletter, ht⟩
    rw [hmatch]
    exact ih (h.step hstar hletter)
  | case6 mp cp c p w wild hstar hletter ih =>
    have hno : ¬WildMatches (w :: wild) (c :: p) := by
      intro hmatch
      obtain ⟨b, t, heq, hletter', -⟩ := (matches_letter hstar).1 hmatch
      rw [← (List.cons.inj heq).1] at hletter'
      exact hletter hletter'
    rw [hback ih, or_iff_right hno]

theorem wildHead_iff (wild p : CString) : wildHead wild p = true ↔ WildMatches wild p := by
  fun_induction wildHead wild p with
  | case1 wild => exact onlyStars_iff wild
  | case2 c p => exact iff_of_false Bool.false_ne_true fun h => cons_ne_nil c p (matches_nil.1 h)
  | case3 wild c p =>
    -- the first star: there is no place to go back to yet
    rw [wildLoop, if_pos rfl]
    split_ifs with hnil
    · rw [hnil]
      exact iff_of_true rfl matches_only_star
    · exact (wildLoop_iff (Behind.start wild (c :: p))).trans matches_star_cons.symm
  | case4 w wild c p hstar hno =>
    refine iff_of_false Bool.false_ne_true fun h => ?_
    obtain ⟨b, t, heq, hletter, -⟩ := (matches_letter hstar).1 h
    rw [← (List.cons.inj heq).1] at hletter
    tauto
  | case5 w wild c p hstar hyes ih =>
    refine ih.trans (Iff.trans ?_ (matches_letter hstar).symm)
    have hletter : w = c ∨ w = ch '?' := by tauto
    constructor
    · exact fun ht => ⟨c, p, rfl, hletter, ht⟩
    · rintro ⟨b, t, heq, -, ht⟩
      rwa [(List.cons.inj heq).2]

/-- **A text is accepted** exactly if it can be split into parts that fit the letters of the pattern. -/
theorem wildCmp_iff {sWild sString : CString} (hwild : (0 : UInt8) ∉ sWild) (hstring : (0 : UInt8) ∉ sString) :
    (wildCmpCase sWild sString .CaseSensitive = true ↔ WildMatches sWild sString) ∧
      wildCmpCase sWild sString .CaseInsensitive = wildCmpCase sWild.asLower sString.asLower .CaseSensitive := by
  refine ⟨?_, rfl⟩
  show wildCmp sWild sString = true ↔ WildMatches sWild sString
  rw [wildCmp, cStr_eq_self hwild, cStr_eq_self hstring, wildHead_iff]

/-- the last star takes what is needed -/
theorem wildCmp_backtracks : (wildCmpCase (lit "*a?c") (lit "abcaxc") .CaseSensitive = true ↔
    WildMatches (lit "*a?c") (lit "abcaxc")) ∧
    wildCmpCase (lit "*a?c") (lit "abcaxc") .CaseInsensitive =
      wildCmpCase (CString.asLower (lit "*a?c")) (CString.asLower (lit "abcaxc")) .CaseSensitive :=
  wildCmp_iff (by decide) (by decide)

end ZNC
