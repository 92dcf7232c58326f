/-
Do the string scanners return? `Split`, `Token`, `Replace_n` and `OptionSplit` of `src/ZNCString.cpp`, with any arguments.

The loops move by the length of what they have found. A round that finds an empty text leaves the position where it is and is
repeated for ever; one that compares equal because of a NUL can leave the string, and then nothing is known of what follows.

Model: as in `TokenSplit`, but with the two ways in which a scanner does not return apart.

Results:
- `splitRun_toOption`, `tokenQuotedRun_toOption`: these are the scanners of `TokenSplit`;
- `splitRun_endless_iff`, `tokenRun_endless_iff`, `replaceRun_endless_iff`: the arguments with which a scanner does not end;
- `scanners_end_iff`: all of it.
-/
import ZNC.TokenSplit

namespace ZNC.ScanEnds

open CString List

/-! ## Model -/

/-- why a scanner does not return -/
inductive Stop where
  | endless
  | outside
deriving DecidableEq, Repr

/-- `while (cmp(p, sSep, len) == 0) p += len` -/
def skipRun (cmp : CString → Bool) (sSep : CString) (p : CString) : Except Stop CString :=
  if cmp p then
    if sSep = [] then .error .endless
    else if p.length < sSep.length then .error .outside
    else skipRun cmp sSep (p.drop sSep.length)
  else .ok p
termination_by p.length
decreasing_by
  rename_i hne hlen
  have hpos := length_pos_iff.2 hne
  rw [length_drop]
  omega

theorem skipRun_toOption (cmp : CString → Bool) (sSep p : CString) : (skipRun cmp sSep p).toOption = skipWhile cmp sSep p := by
  fun_induction skipRun cmp sSep p with
  | case1 p h hnil => rw [skipWhile, if_pos h, if_pos (.inl hnil)]; rfl
  | case2 p h _ hlen => rw [skipWhile, if_pos h, if_pos (.inr hlen)]; rfl
  | case3 p h hne hlen ih => rw [skipWhile, if_pos h, if_neg (not_or.2 ⟨hne, hlen⟩), ih]
  | case4 p h => rw [skipWhile, if_neg h]; rfl

theorem toOption_of_ok {α : Type} {x : Except Stop α} {a : α} (h : x = .ok a) : x.toOption = some a := by
  rw [h]
  rfl

variable {a : SplitArgs} {sSep : CString} (s : CString)

theorem length_skipRun {cmp : CString → Bool} {p q : CString} (h : skipRun cmp sSep p = .ok q) : q.length ≤ p.length :=
  length_skipWhile ((skipRun_toOption cmp sSep p).symm.trans (toOption_of_ok h))

/-- `p += uDelimLen` and the delimiters behind it -/
def behindDelim (a : SplitArgs) (p : CString) : Except Stop CString :=
  if p.length < a.sDelim.length then .error .outside
  else if a.bAllowEmpty then .ok (p.drop a.sDelim.length)
  else skipRun a.isDelim a.sDelim (p.drop a.sDelim.length)

theorem behindDelim_toOption (a : SplitArgs) (p : CString) : (behindDelim a p).toOption = a.behindDelim p := by
  rw [behindDelim, SplitArgs.behindDelim]
  split_ifs
  · rfl
  · rfl
  · exact skipRun_toOption _ _ _

theorem length_behindDelim {p q : CString} (h : behindDelim a p = .ok q) :
    q.length ≤ p.length - a.sDelim.length ∧ a.sDelim.length ≤ p.length :=
  SplitArgs.length_behindDelim ((behindDelim_toOption a p).symm.trans (toOption_of_ok h))

def splitScan (a : SplitArgs) (bInside : Bool) (sTmp : CString) (p : CString) : Except Stop VCString :=
  if p.head?.getD 0 = 0 then .ok (if sTmp = [] then [] else [a.token sTmp])
  else if a.quotes && !bInside && strncasecmp p a.sLeft a.sLeft.length then
    if p.length < a.sLeft.length then .error .outside
    else splitScan a true (sTmp ++ if a.bTrimQuotes then [] else a.sLeft) (p.drop a.sLeft.length)
  else if a.quotes && bInside && strncasecmp p a.sRight a.sRight.length then
    if p.length < a.sRight.length then .error .outside
    else splitScan a false (sTmp ++ if a.bTrimQuotes then [] else a.sRight) (p.drop a.sRight.length)
  else if a.sDelim ≠ [] ∧ !bInside ∧ a.isDelim p then
    match _hq : behindDelim a p with
    | .error e => .error e
    | .ok q => (splitScan a false [] q).map (a.token sTmp :: ·)
  else splitScan a bInside (sTmp ++ p.take 1) (p.drop 1)
termination_by p.length
decreasing_by
  · have hpos : 0 < a.sLeft.length := length_pos_iff.2 (by simp_all [SplitArgs.quotes])
    rw [length_drop]
    omega
  · have hpos : 0 < a.sRight.length := length_pos_iff.2 (by simp_all [SplitArgs.quotes])
    rw [length_drop]
    omega
  · rename_i hdelim
    have hpos := length_pos_iff.2 hdelim.1
    have hle := length_behindDelim _hq
    omega
  · have hpos : 0 < p.length := length_pos_iff.2 (by rintro rfl; simp_all)
    rw [length_drop]
    omega

/-- `Split(sDelim, vsRet, bAllowEmpty, sLeft, sRight, bTrimQuotes, bTrimWhiteSpace)` -/
def splitRun (s : CString) (a : SplitArgs) : Except Stop VCString :=
  if s = [] then .ok []
  else if a.bAllowEmpty then splitScan a false [] s
  else (skipRun a.isDelim a.sDelim s).bind (splitScan a false [])

/-- the first loops of `Token`: the text from the start of the token `uPos` on -/
def tokenLoop (sSep : CString) (bAllowEmpty : Bool) : ℕ → CString → Except Stop CString
  | 0, p => .ok p
  | _ + 1, [] => .ok []
  | uPos + 1, c :: p =>
    if strncmp (c :: p) sSep then
      if (c :: p).length < sSep.length then .error .outside
      else if bAllowEmpty then tokenLoop sSep bAllowEmpty uPos ((c :: p).drop sSep.length)
      else
        match skipRun (strncmp · sSep) sSep ((c :: p).drop sSep.length) with
        | .error e => .error e
        | .ok q => tokenLoop sSep bAllowEmpty uPos q
    else tokenLoop sSep bAllowEmpty (uPos + 1) p
termination_by uPos p => (uPos, p.length)

/-- `Token(uPos, bRest, sSep, bAllowEmpty)` -/
def tokenRun (s : CString) (uPos : ℕ) (bRest : Bool) (sSep : CString) (bAllowEmpty : Bool) : Except Stop CString :=
  ((if bAllowEmpty then .ok s else skipRun (strncmp · sSep) sSep s).bind (tokenLoop sSep bAllowEmpty uPos)).map fun p =>
    if bRest then p else tokenEnd sSep p

/-- `Token(uPos, bRest, sSep, bAllowEmpty, sLeft, sRight, bTrimQuotes)` -/
def tokenQuotedRun (s : CString) (uPos : ℕ) (bRest : Bool) (sSep : CString) (bAllowEmpty : Bool) (sLeft sRight : CString)
    (bTrimQuotes : Bool) : Except Stop CString :=
  (splitRun s ⟨sSep, bAllowEmpty, sLeft, sRight, bTrimQuotes, false⟩).bind fun vsTokens =>
    if vsTokens.length > uPos then .ok (if bRest then sSep.join (vsTokens.drop uPos) else vsTokens.getD uPos [])
    else tokenRun s uPos bRest sSep bAllowEmpty

structure ReplaceArgs where
  sReplace : CString
  sWith : CString
  sLeft : CString
  sRight : CString
  bRemoveDelims : Bool

/-- the loop of `Replace`: the text and `uRet` -/
def replaceLoop (a : ReplaceArgs) (bInside : Bool) (sStr : CString) (uRet : UInt32) (p : CString) :
    Except Stop (CString × UInt32) :=
  if p.head?.getD 0 = 0 then .ok (sStr, uRet)
  else if !bInside ∧ a.sLeft ≠ [] ∧ strncmp p a.sLeft then
    if p.length < a.sLeft.length then .error .outside
    else replaceLoop a true (if a.bRemoveDelims then sStr else sStr ++ a.sLeft) uRet (p.drop a.sLeft.length)
  else if bInside ∧ a.sRight ≠ [] ∧ strncmp p a.sRight then
    if p.length < a.sRight.length then .error .outside
    else replaceLoop a false (if a.bRemoveDelims then sStr else sStr ++ a.sRight) uRet (p.drop a.sRight.length)
  else if !bInside ∧ strncmp p a.sReplace then
    -- `p += uReplaceWidth - 1` and `p++`
    if a.sReplace = [] then .error .endless
    else if p.length < a.sReplace.length then .error .outside
    else replaceLoop a bInside (sStr ++ a.sWith) (uRet + 1) (p.drop a.sReplace.length)
  else replaceLoop a bInside (sStr ++ p.take 1) uRet (p.drop 1)
termination_by p.length
decreasing_by
  · rename_i h _
    have hpos := length_pos_iff.2 h.2.1
    rw [length_drop]
    omega
  · rename_i h _
    have hpos := length_pos_iff.2 h.2.1
    rw [length_drop]
    omega
  · rename_i hne _
    have hpos := length_pos_iff.2 hne
    rw [length_drop]
    omega
  · have hpos : 0 < p.length := length_pos_iff.2 (by rintro rfl; simp_all)
    rw [length_drop]
    omega

/-- `Replace_n(sReplace, sWith, sLeft, sRight, bRemoveDelims)` -/
def replaceRun (s : CString) (a : ReplaceArgs) : Except Stop CString := (replaceLoop a false [] 0 s).map Prod.fst

/-! ## These are the scanners of `TokenSplit` -/

theorem toOption_map {α β : Type} (f : α → β) (x : Except Stop α) : (x.map f).toOption = x.toOption.map f := by
  cases x <;> rfl

theorem toOption_bind {α β : Type} {f : α → Except Stop β} {g : α → Option β} (h : ∀ y, (f y).toOption = g y) (x : Except Stop α) :
    (x.bind f).toOption = x.toOption.bind g := by
  cases x with
  | error e => rfl
  | ok y => exact h y

theorem splitScan_toOption (a : SplitArgs) (bInside : Bool) (sTmp p : CString) :
    (splitScan a bInside sTmp p).toOption = splitFrom a bInside sTmp p := by
  fun_induction splitScan a bInside sTmp p with
  | case1 bInside sTmp p h => rw [splitFrom, if_pos h]; rfl
  | case2 bInside sTmp p h1 h2 hlen => rw [splitFrom, if_neg h1, if_pos h2, if_pos hlen]; rfl
  | case3 bInside sTmp p h1 h2 hlen ih => rw [splitFrom, if_neg h1, if_pos h2, if_neg hlen]; exact ih
  | case4 bInside sTmp p h1 h2 h3 hlen => rw [splitFrom, if_neg h1, if_neg h2, if_pos h3, if_pos hlen]; rfl
  | case5 bInside sTmp p h1 h2 h3 hlen ih => rw [splitFrom, if_neg h1, if_neg h2, if_pos h3, if_neg hlen]; exact ih
  | case6 bInside sTmp p h1 h2 h3 h4 e hq =>
    have hnone : a.behindDelim p = none := by
      rw [← behindDelim_toOption, hq]
      rfl
    rw [splitFrom, if_neg h1, if_neg h2, if_neg h3, if_pos h4]
    split
    · rfl
    · case h_2 q hsome => exact absurd (hnone.symm.trans hsome) (by simp)
  | case7 bInside sTmp p h1 h2 h3 h4 q hq ih =>
    have hsome : a.behindDelim p = some q := by
      rw [← behindDelim_toOption, hq]
      rfl
    rw [splitFrom, if_neg h1, if_neg h2, if_neg h3, if_pos h4, toOption_map, ih]
    split
    · case h_1 hnone => exact absurd (hnone.symm.trans hsome) (by simp)
    · case h_2 r hr => rw [Option.some.inj (hr.symm.trans hsome)]
  | case8 bInside sTmp p h1 h2 h3 h4 ih => rw [splitFrom, if_neg h1, if_neg h2, if_neg h3, if_neg h4, ih]

theorem splitRun_toOption (a : SplitArgs) : (splitRun s a).toOption = splitText s a := by
  rw [splitRun, splitText]
  split_ifs
  · rfl
  · exact splitScan_toOption a false [] s
  · rw [toOption_bind (splitScan_toOption a false []), skipRun_toOption]

theorem tokenLoop_toOption (sSep : CString) (bAllowEmpty : Bool) (uPos : ℕ) (p : CString) :
    (tokenLoop sSep bAllowEmpty uPos p).toOption = tokenStart sSep bAllowEmpty uPos p := by
  fun_induction tokenLoop sSep bAllowEmpty uPos p with
  | case1 p => rw [tokenStart]; rfl
  | case2 uPos => rw [tokenStart]; rfl
  | case3 uPos c p h hlen => rw [tokenStart, if_pos h, if_pos hlen]; rfl
  | case4 uPos c p h hlen hallow ih => rw [tokenStart, if_pos h, if_neg hlen, if_pos hallow, ih]
  | case5 uPos c p h hlen hallow e hq =>
    have hnone := skipRun_toOption (strncmp · sSep) sSep ((c :: p).drop sSep.length)
    rw [hq] at hnone
    rw [tokenStart, if_pos h, if_neg hlen, if_neg hallow, ← hnone]
    rfl
  | case6 uPos c p h hlen hallow q hq ih =>
    have hsome := skipRun_toOption (strncmp · sSep) sSep ((c :: p).drop sSep.length)
    rw [hq] at hsome
    rw [tokenStart, if_pos h, if_neg hlen, if_neg hallow, ← hsome, ih]
    rfl
  | case7 uPos c p h ih => rw [tokenStart, if_neg h, ih]

theorem tokenRun_toOption (uPos : ℕ) (bRest : Bool) (sSep : CString) (bAllowEmpty : Bool) :
    (tokenRun s uPos bRest sSep bAllowEmpty).toOption = tokenText s uPos bRest sSep bAllowEmpty := by
  rw [tokenRun, tokenText, toOption_map, toOption_bind (tokenLoop_toOption sSep bAllowEmpty uPos)]
  congr 2
  split_ifs
  · rfl
  · exact skipRun_toOption _ _ _

theorem tokenQuotedRun_toOption (uPos : ℕ) (bRest : Bool) (sSep : CString) (bAllowEmpty : Bool) (sLeft sRight : CString)
    (bTrimQuotes : Bool) :
    (tokenQuotedRun s uPos bRest sSep bAllowEmpty sLeft sRight bTrimQuotes).toOption =
      tokenQuoted s uPos bRest sSep bAllowEmpty sLeft sRight bTrimQuotes := by
  rw [tokenQuotedRun, tokenQuoted, ← splitRun_toOption]
  refine toOption_bind (fun vsTokens => ?_) _
  split_ifs
  · rfl
  · rfl
  · exact tokenRun_toOption s uPos bRest sSep bAllowEmpty

/-! ## Endless loops -/

theorem skipRun_endless_iff {cmp : CString → Bool} {p : CString} :
    skipRun cmp sSep p = .error .endless ↔ sSep = [] ∧ cmp p = true := by
  fun_induction skipRun cmp sSep p with
  | case1 p h hnil => exact iff_of_true rfl ⟨hnil, h⟩
  | case2 p h hne hlen => exact iff_of_false (by simp) fun hbad => hne hbad.1
  | case3 p h hne hlen ih => exact ih.trans (iff_of_false (fun hbad => hne hbad.1) fun hbad => hne hbad.1)
  | case4 p h => exact iff_of_false (by simp) fun hbad => h hbad.2

theorem splitScan_ends (a : SplitArgs) (bInside : Bool) (sTmp p : CString) : splitScan a bInside sTmp p ≠ .error .endless := by
  fun_induction splitScan a bInside sTmp p with
  | case1 => exact nofun
  | case2 => exact nofun
  | case3 _ _ _ _ _ _ ih => exact ih
  | case4 => exact nofun
  | case5 _ _ _ _ _ _ _ ih => exact ih
  | case6 bInside sTmp p _ _ _ h e hq =>
    rintro ⟨⟩
    rw [behindDelim] at hq
    split_ifs at hq
    · cases hq
    · exact h.1 (skipRun_endless_iff.1 hq).1
  | case7 bInside sTmp p _ _ _ _ q _ ih =>
    intro h
    cases hloop : splitScan a false [] q with
    | error e =>
      rw [hloop] at h ih
      cases h
      exact ih rfl
    | ok vs =>
      rw [hloop] at h
      cases h
  | case8 _ _ _ _ _ _ _ ih => exact ih

theorem bind_endless_iff {α β : Type} {x : Except Stop α} {f : α → Except Stop β} (hf : ∀ y, f y ≠ .error .endless) :
    x.bind f = .error .endless ↔ x = .error .endless := by
  cases x with
  | error e => exact ⟨fun h => by cases h; rfl, fun h => by cases h; rfl⟩
  | ok y => exact iff_of_false (hf y) nofun

/-- **`Split`** does not end with an empty delimiter, when empty tokens are not allowed. -/
theorem splitRun_endless_iff {s : CString} :
    splitRun s a = .error .endless ↔ s ≠ [] ∧ a.sDelim = [] ∧ a.bAllowEmpty = false := by
  rw [splitRun]
  split_ifs with hs hallow
  · exact iff_of_false nofun fun h => h.1 hs
  · exact iff_of_false (splitScan_ends a false [] s) fun h => by simp [hallow] at h
  · have hempty : a.sDelim = [] → a.isDelim s = true := by
      intro hnil
      rw [SplitArgs.isDelim, hnil]
      rfl
    rw [bind_endless_iff (splitScan_ends a false []), skipRun_endless_iff]
    exact ⟨fun h => ⟨hs, h.1, by simpa using hallow⟩, fun h => ⟨h.2.1, hempty h.2.1⟩⟩

theorem tokenLoop_ends {bAllowEmpty : Bool} (h : sSep ≠ [] ∨ bAllowEmpty = true) (uPos : ℕ) (p : CString) :
    tokenLoop sSep bAllowEmpty uPos p ≠ .error .endless := by
  fun_induction tokenLoop sSep bAllowEmpty uPos p with
  | case1 => exact nofun
  | case2 => exact nofun
  | case3 => exact nofun
  | case4 _ _ _ _ _ _ ih => exact ih
  | case5 uPos c p _ _ hallow e hq =>
    rintro ⟨⟩
    exact h.elim (fun hne => hne (skipRun_endless_iff.1 hq).1) hallow
  | case6 _ _ _ _ _ _ _ _ ih => exact ih
  | case7 _ _ _ _ ih => exact ih

/-- **`Token`** does not end with an empty separator, when empty tokens are not allowed. -/
theorem tokenRun_endless_iff {s : CString} {uPos : ℕ} {bRest : Bool} {bAllowEmpty : Bool} :
    tokenRun s uPos bRest sSep bAllowEmpty = .error .endless ↔ sSep = [] ∧ bAllowEmpty = false := by
  have hmap {α β : Type} (f : α → β) (x : Except Stop α) : x.map f = .error .endless ↔ x = .error .endless :=
    bind_endless_iff fun y => nofun
  rw [tokenRun, hmap]
  by_cases h : sSep = [] ∧ bAllowEmpty = false
  · obtain ⟨rfl, rfl⟩ := h
    rw [if_neg Bool.false_ne_true, skipRun_endless_iff.2 ⟨rfl, rfl⟩]
    exact iff_of_true rfl ⟨rfl, rfl⟩
  · have hends : sSep ≠ [] ∨ bAllowEmpty = true := by
      by_contra hno
      rw [not_or, not_not, Bool.not_eq_true] at hno
      exact h hno
    rw [bind_endless_iff (tokenLoop_ends hends uPos)]
    split_ifs with hallow
    · exact iff_of_false nofun h
    · rw [skipRun_endless_iff]
      exact iff_of_false (fun hbad => h ⟨hbad.1, by simpa using hallow⟩) h

theorem tokenQuotedRun_endless_iff {s : CString} {uPos : ℕ} {bRest : Bool} {bAllowEmpty : Bool} {sLeft sRight : CString}
    {bTrimQuotes : Bool} :
    tokenQuotedRun s uPos bRest sSep bAllowEmpty sLeft sRight bTrimQuotes = .error .endless ↔
      sSep = [] ∧ bAllowEmpty = false := by
  rw [tokenQuotedRun]
  by_cases h : sSep = [] ∧ bAllowEmpty = false
  · by_cases hs : s = []
    · rw [hs, show splitRun [] _ = .ok [] from if_pos rfl]
      exact tokenRun_endless_iff
    · rw [splitRun_endless_iff.2 ⟨hs, h⟩]
      exact iff_of_true rfl h
  · rw [bind_endless_iff fun vsTokens => ?_, splitRun_endless_iff]
    · exact iff_of_false (fun hbad => h hbad.2) h
    · split_ifs
      · exact nofun
      · exact nofun
      · exact fun hbad => h (tokenRun_endless_iff.1 hbad)

/-! ## `Replace` -/

/-- a text, from inside a quoted section or not, whose letters up to the first NUL are all in quoted sections -/
inductive Sectioned (sLeft sRight : CString) : Bool → CString → Prop
  | ended {bInside : Bool} {p : CString} (h : p.head?.getD 0 = 0) : Sectioned sLeft sRight bInside p
  | opened {p : CString} (hne : sLeft ≠ []) (h : strncmp p sLeft = true)
      (hp : Sectioned sLeft sRight true (p.drop sLeft.length)) : Sectioned sLeft sRight false p
  | closed {p : CString} (hne : sRight ≠ []) (h : strncmp p sRight = true)
      (hp : Sectioned sLeft sRight false (p.drop sRight.length)) : Sectioned sLeft sRight true p
  | letter {p : CString} (h : ¬(sRight ≠ [] ∧ strncmp p sRight = true))
      (hp : Sectioned sLeft sRight true (p.drop 1)) : Sectioned sLeft sRight true p

theorem replaceLoop_ends {a : ReplaceArgs} (hne : a.sReplace ≠ []) (bInside : Bool) (sStr : CString) (uRet : UInt32) (p : CString) :
    replaceLoop a bInside sStr uRet p ≠ .error .endless := by
  fun_induction replaceLoop a bInside sStr uRet p with
  | case6 _ _ _ _ _ _ _ _ hnil => exact absurd hnil hne
  | _ => first | assumption | exact nofun

section Sections

variable {sLeft sRight p : CString} (h0 : p.head?.getD 0 ≠ 0)
include h0

theorem sectioned_left_iff : Sectioned sLeft sRight false p ↔
    (sLeft ≠ [] ∧ strncmp p sLeft = true) ∧ Sectioned sLeft sRight true (p.drop sLeft.length) := by
  constructor
  · intro h
    cases h with
    | ended h => exact absurd h h0
    | opened hne h hp => exact ⟨⟨hne, h⟩, hp⟩
  · intro h
    exact .opened h.1.1 h.1.2 h.2

theorem sectioned_right_iff (h : sRight ≠ [] ∧ strncmp p sRight = true) :
    Sectioned sLeft sRight true p ↔ Sectioned sLeft sRight false (p.drop sRight.length) := by
  constructor
  · intro hp
    cases hp with
    | ended h => exact absurd h h0
    | closed _ _ hp => exact hp
    | letter hno _ => exact absurd h hno
  · exact .closed h.1 h.2

theorem sectioned_letter_iff (h : ¬(sRight ≠ [] ∧ strncmp p sRight = true)) :
    Sectioned sLeft sRight true p ↔ Sectioned sLeft sRight true (p.drop 1) := by
  constructor
  · intro hp
    cases hp with
    | ended h => exact absurd h h0
    | closed hne hat _ => exact absurd ⟨hne, hat⟩ h
    | letter _ hp => exact hp
  · exact .letter h

end Sections

theorem sectioned_drop {sLeft sRight w p : CString} (h : p.length < w.length) (bInside : Bool) :
    Sectioned sLeft sRight bInside (p.drop w.length) := by
  rw [drop_eq_nil_of_le h.le]
  exact .ended rfl

/-- **Without a needle** the loop ends only if it gets through the text in quoted sections. -/
theorem replaceLoop_endless_iff {a : ReplaceArgs} (hnil : a.sReplace = []) (bInside : Bool) (sStr : CString) (uRet : UInt32)
    (p : CString) : replaceLoop a bInside sStr uRet p = .error .endless ↔ ¬Sectioned a.sLeft a.sRight bInside p := by
  have hneedle (p : CString) : strncmp p a.sReplace = true := by
    rw [hnil]
    rfl
  fun_induction replaceLoop a bInside sStr uRet p with
  | case1 bInside sStr uRet p h => exact iff_of_false nofun (not_not.2 (.ended h))
  | case2 bInside sStr uRet p h0 h hlen =>
    obtain rfl : bInside = false := by simpa using h.1
    exact iff_of_false nofun (not_not.2 ((sectioned_left_iff h0).2 ⟨h.2, sectioned_drop hlen true⟩))
  | case3 bInside sStr uRet p h0 h hlen ih =>
    obtain rfl : bInside = false := by simpa using h.1
    refine Iff.trans ih (not_congr ?_)
    rw [sectioned_left_iff h0, and_iff_right h.2]
  | case4 bInside sStr uRet p h0 hleft h hlen =>
    obtain rfl : bInside = true := h.1
    exact iff_of_false nofun (not_not.2 ((sectioned_right_iff h0 h.2).2 (sectioned_drop hlen false)))
  | case5 bInside sStr uRet p h0 hleft h hlen ih =>
    obtain rfl : bInside = true := h.1
    exact Iff.trans ih (not_congr (sectioned_right_iff h0 h.2).symm)
  | case6 bInside sStr uRet p h0 hleft hright h _ =>
    obtain rfl : bInside = false := by simpa using h.1
    exact iff_of_true rfl fun hp => hleft ⟨rfl, ((sectioned_left_iff h0).1 hp).1⟩
  | case7 bInside sStr uRet p h0 hleft hright h hne => exact absurd hnil hne
  | case8 bInside sStr uRet p h0 hleft hright h hne => exact absurd hnil hne
  | case9 bInside sStr uRet p h0 hleft hright h ih =>
    obtain rfl : bInside = true := by
      by_contra hout
      exact h ⟨by simpa using hout, hneedle p⟩
    exact Iff.trans ih (not_congr (sectioned_letter_iff h0 fun hat => hright ⟨rfl, hat⟩).symm)

theorem replaceRun_endless_iff {s : CString} {a : ReplaceArgs} :
    replaceRun s a = .error .endless ↔ a.sReplace = [] ∧ ¬Sectioned a.sLeft a.sRight false s := by
  have hmap : replaceRun s a = .error .endless ↔ replaceLoop a false [] 0 s = .error .endless := bind_endless_iff fun y => nofun
  rw [hmap]
  by_cases hnil : a.sReplace = []
  · rw [replaceLoop_endless_iff hnil, and_iff_right hnil]
  · exact iff_of_false (replaceLoop_ends hnil false [] 0 s) fun h => hnil h.1

/-! ## Without NULs no scanner leaves the string -/

theorem length_le_of_strncmp {t p : CString} (h0 : (0 : UInt8) ∉ t) (h : strncmp p t = true) : t.length ≤ p.length :=
  ((strncmp_iff h0 p).1 h).length_le

theorem skipRun_inside {cmp : CString → Bool} (hcmp : ∀ p, cmp p = true → sSep.length ≤ p.length) (p : CString) :
    skipRun cmp sSep p ≠ .error .outside := by
  fun_induction skipRun cmp sSep p with
  | case1 => exact nofun
  | case2 p h _ hlen => exact absurd (hcmp p h) (not_le.2 hlen)
  | case3 _ _ _ _ ih => exact ih
  | case4 => exact nofun

theorem map_outside_iff {α β : Type} {f : α → β} {x : Except Stop α} : x.map f = .error .outside ↔ x = .error .outside := by
  cases x with
  | error e => exact ⟨fun h => by cases h; rfl, fun h => by cases h; rfl⟩
  | ok y => exact iff_of_false nofun nofun

theorem bind_inside {α β : Type} {x : Except Stop α} {f : α → Except Stop β} (hx : x ≠ .error .outside)
    (hf : ∀ y, f y ≠ .error .outside) : x.bind f ≠ .error .outside := by
  cases x with
  | error e => exact fun h => hx (by cases h; rfl)
  | ok y => exact hf y

/-- the separator and the quotes hold no NUL -/
structure NulFree (a : SplitArgs) : Prop where
  delim : (0 : UInt8) ∉ a.sDelim
  left : (0 : UInt8) ∉ a.sLeft
  right : (0 : UInt8) ∉ a.sRight

theorem splitScan_inside (ha : NulFree a) (bInside : Bool) (sTmp p : CString) :
    splitScan a bInside sTmp p ≠ .error .outside := by
  have hcmp : ∀ p, a.isDelim p = true → a.sDelim.length ≤ p.length := fun p => length_le_of_strncasecmp ha.delim
  fun_induction splitScan a bInside sTmp p with
  | case1 => exact nofun
  | case2 bInside sTmp p _ h hlen =>
    rw [Bool.and_eq_true] at h
    exact absurd (length_le_of_strncasecmp ha.left h.2) (not_le.2 hlen)
  | case3 _ _ _ _ _ _ ih => exact ih
  | case4 bInside sTmp p _ _ h hlen =>
    rw [Bool.and_eq_true] at h
    exact absurd (length_le_of_strncasecmp ha.right h.2) (not_le.2 hlen)
  | case5 _ _ _ _ _ _ _ ih => exact ih
  | case6 bInside sTmp p _ _ _ h e hq =>
    rintro ⟨⟩
    rw [behindDelim, if_neg (not_lt.2 (hcmp p h.2.2))] at hq
    split_ifs at hq
    exact skipRun_inside hcmp _ hq
  | case7 bInside sTmp p _ _ _ _ q _ ih => exact fun h => ih (map_outside_iff.1 h)
  | case8 _ _ _ _ _ _ _ ih => exact ih

theorem splitRun_inside (ha : NulFree a) (s : CString) : splitRun s a ≠ .error .outside := by
  rw [splitRun]
  split_ifs
  · exact nofun
  · exact splitScan_inside ha false [] s
  · exact bind_inside (skipRun_inside (fun p => length_le_of_strncasecmp ha.delim) s) (splitScan_inside ha false [])

theorem tokenLoop_inside (h0 : (0 : UInt8) ∉ sSep) (bAllowEmpty : Bool) (uPos : ℕ) (p : CString) :
    tokenLoop sSep bAllowEmpty uPos p ≠ .error .outside := by
  have hcmp : ∀ p, strncmp p sSep = true → sSep.length ≤ p.length := fun p => length_le_of_strncmp h0
  fun_induction tokenLoop sSep bAllowEmpty uPos p with
  | case1 => exact nofun
  | case2 => exact nofun
  | case3 uPos c p h hlen => exact absurd (hcmp _ h) (not_le.2 hlen)
  | case4 _ _ _ _ _ _ ih => exact ih
  | case5 uPos c p _ _ _ e hq =>
    rintro ⟨⟩
    exact skipRun_inside hcmp _ hq
  | case6 _ _ _ _ _ _ _ _ ih => exact ih
  | case7 _ _ _ _ ih => exact ih

theorem tokenRun_inside (h0 : (0 : UInt8) ∉ sSep) (s : CString) (uPos : ℕ) (bRest bAllowEmpty : Bool) :
    tokenRun s uPos bRest sSep bAllowEmpty ≠ .error .outside := by
  rw [tokenRun, ne_eq, map_outside_iff]
  refine bind_inside ?_ (tokenLoop_inside h0 bAllowEmpty uPos)
  split_ifs
  · exact nofun
  · exact skipRun_inside (fun p => length_le_of_strncmp h0) s

theorem tokenQuotedRun_inside {sLeft sRight : CString} {bAllowEmpty bTrimQuotes : Bool}
    (ha : NulFree ⟨sSep, bAllowEmpty, sLeft, sRight, bTrimQuotes, false⟩) (s : CString) (uPos : ℕ) (bRest : Bool) :
    tokenQuotedRun s uPos bRest sSep bAllowEmpty sLeft sRight bTrimQuotes ≠ .error .outside := by
  rw [tokenQuotedRun]
  refine bind_inside (splitRun_inside ha s) fun vsTokens => ?_
  split_ifs
  · exact nofun
  · exact nofun
  · exact tokenRun_inside ha.delim s uPos bRest bAllowEmpty

theorem replaceLoop_inside {a : ReplaceArgs} (hneedle : (0 : UInt8) ∉ a.sReplace) (hleft : (0 : UInt8) ∉ a.sLeft)
    (hright : (0 : UInt8) ∉ a.sRight) (bInside : Bool) (sStr : CString) (uRet : UInt32) (p : CString) :
    replaceLoop a bInside sStr uRet p ≠ .error .outside := by
  fun_induction replaceLoop a bInside sStr uRet p with
  | case2 _ _ _ _ _ h hlen => exact absurd (length_le_of_strncmp hleft h.2.2) (not_le.2 hlen)
  | case4 _ _ _ _ _ _ h hlen => exact absurd (length_le_of_strncmp hright h.2.2) (not_le.2 hlen)
  | case7 _ _ _ _ _ _ _ h _ hlen => exact absurd (length_le_of_strncmp hneedle h.2) (not_le.2 hlen)
  | _ => first | assumption | exact nofun

/-! ## What `Token(1, true)` leaves -/

/-- the length of tokens, each with one letter behind it -/
def weight (vs : VCString) : ℕ := (vs.map (·.length + 1)).sum

theorem length_join {c : UInt8} {vs : VCString} (h : vs ≠ []) : (join [c] vs).length + 1 = weight vs := by
  cases vs with
  | nil => exact absurd rfl h
  | cons v vs =>
    have htail : (vs.flatMap ([c] ++ ·)).length = weight vs := by
      rw [length_flatMap, weight]
      rfl
    rw [join_cons, length_append, htail, weight, weight, map_cons, sum_cons, Nat.add_right_comm]

theorem length_take_one {p : CString} (h : p.head?.getD 0 ≠ 0) : (p.take 1).length = 1 ∧ (p.drop 1).length + 1 = p.length := by
  cases p with
  | nil => exact absurd rfl h
  | cons c p => exact ⟨rfl, rfl⟩

theorem weight_splitScan (htrim : a.bTrimWhiteSpace = false) {bInside : Bool} {sTmp p : CString} {vs : VCString}
    (h : splitScan a bInside sTmp p = .ok vs) : weight vs ≤ sTmp.length + p.length + 1 := by
  fun_induction splitScan a bInside sTmp p generalizing vs with
  | case1 bInside sTmp p =>
    cases h
    split_ifs with hempty
    · exact Nat.zero_le _
    · rw [SplitArgs.token, htrim]
      simp [weight]
  | case2 => cases h
  | case3 bInside sTmp p _ _ hlen ih =>
    have hle := ih h
    have hkept : (if a.bTrimQuotes = true then [] else a.sLeft).length ≤ a.sLeft.length := by
      split_ifs
      · exact Nat.zero_le _
      · exact le_rfl
    simp only [dite_eq_ite, length_append, length_drop] at hle
    omega
  | case4 => cases h
  | case5 bInside sTmp p _ _ _ hlen ih =>
    have hle := ih h
    have hkept : (if a.bTrimQuotes = true then [] else a.sRight).length ≤ a.sRight.length := by
      split_ifs
      · exact Nat.zero_le _
      · exact le_rfl
    simp only [dite_eq_ite, length_append, length_drop] at hle
    omega
  | case6 => cases h
  | case7 bInside sTmp p _ _ _ hdelim q hq ih =>
    cases hloop : splitScan a false [] q with
    | error e =>
      rw [hloop] at h
      cases h
    | ok ws =>
      rw [hloop] at h
      cases h
      have hle := ih hloop
      have hbehind := length_behindDelim hq
      have hpos := length_pos_iff.2 hdelim.1
      rw [length_nil] at hle
      rw [weight, map_cons, sum_cons, SplitArgs.token, htrim, if_neg Bool.false_ne_true]
      rw [weight] at hle
      omega
  | case8 bInside sTmp p h0 _ _ _ ih =>
    have hle := ih h
    obtain ⟨hone, hrest⟩ := length_take_one h0
    rw [length_append] at hle
    omega

theorem weight_splitRun {s : CString} {a : SplitArgs} (htrim : a.bTrimWhiteSpace = false) {vs : VCString}
    (h : splitRun s a = .ok vs) : weight vs ≤ s.length + 1 := by
  rw [splitRun] at h
  split_ifs at h
  · cases h
    exact Nat.zero_le _
  · simpa using weight_splitScan htrim h
  · cases hskip : skipRun a.isDelim a.sDelim s with
    | error e =>
      rw [hskip] at h
      cases h
    | ok p =>
      rw [hskip] at h
      have hle := length_skipRun hskip
      have hweight := weight_splitScan htrim h
      rw [length_nil] at hweight
      omega

theorem length_tokenLoop {sSep : CString} (hne : sSep ≠ []) {uPos : ℕ} {p q : CString}
    (h : tokenLoop sSep false uPos p = .ok q) : q.length + uPos ≤ p.length ∨ q = [] := by
  fun_induction tokenLoop sSep false uPos p with
  | case1 p =>
    cases h
    exact .inl le_rfl
  | case2 =>
    cases h
    exact .inr rfl
  | case3 => cases h
  | case4 => contradiction
  | case5 => cases h
  | case6 uPos c p _ hlen _ r hr ih =>
    have hpos := length_pos_iff.2 hne
    have hle := length_skipRun hr
    rw [length_drop] at hle
    rcases ih h with hbound | hnil
    · exact .inl (by omega)
    · exact .inr hnil
  | case7 uPos c p _ ih =>
    rcases ih h with hbound | hnil
    · exact .inl (hbound.trans (Nat.le_succ _))
    · exact .inr hnil

/-- **What is left behind the first token** is shorter. -/
theorem length_tokenRun {s t : CString} (hne : sSep ≠ []) (h : tokenRun s 1 true sSep false = .ok t) :
    t.length < s.length ∨ t = [] := by
  rw [tokenRun, if_neg Bool.false_ne_true] at h
  cases hskip : skipRun (strncmp · sSep) sSep s with
  | error e =>
    rw [hskip] at h
    cases h
  | ok p =>
    rw [hskip] at h
    change (tokenLoop sSep false 1 p).map _ = _ at h
    cases hloop : tokenLoop sSep false 1 p with
    | error e =>
      rw [hloop] at h
      cases h
    | ok q =>
      rw [hloop] at h
      cases h
      have hle := length_skipRun hskip
      exact (length_tokenLoop hne hloop).imp_left fun hbound => by simpa using by omega

theorem length_tokenQuotedRun {c : UInt8} {s sLeft sRight t : CString} {bTrimQuotes : Bool}
    (h : tokenQuotedRun s 1 true [c] false sLeft sRight bTrimQuotes = .ok t) : t.length < s.length ∨ t = [] := by
  rw [tokenQuotedRun] at h
  cases hsplit : splitRun s ⟨[c], false, sLeft, sRight, bTrimQuotes, false⟩ with
  | error e =>
    rw [hsplit] at h
    cases h
  | ok vs =>
    rw [hsplit] at h
    change (if vs.length > 1 then Except.ok (join [c] (vs.drop 1)) else tokenRun s 1 true [c] false) = .ok t at h
    split_ifs at h with hmany
    · cases h
      have hweight := weight_splitRun rfl hsplit
      cases vs with
      | nil => exact absurd hmany (by simp)
      | cons v vs =>
        have hne : vs ≠ [] := by
          rintro rfl
          exact absurd hmany (by simp)
        have hjoin := length_join hne (c := c)
        rw [weight, map_cons, sum_cons] at hweight
        rw [weight] at hjoin
        rw [drop_one, tail_cons]
        exact .inl (by omega)
    · exact length_tokenRun (cons_ne_nil c []) h

/-! ## `OptionSplit` -/

/-- `sKeyName`, as it is stored -/
def keyName (bUpperKeys : Bool) (sKeyName : CString) : CString := if bUpperKeys then sKeyName.asUpper else sKeyName

/-- the inner loop of `OptionSplit`: what is left of `sCopy`, and `msRet` -/
def storeNames (bUpperKeys : Bool) : VCString → CString → MCString → Except Stop (CString × MCString)
  | [], sCopy, msRet => .ok (sCopy, msRet)
  | [sKeyName], sCopy, msRet => do
    let sValue ← tokenQuotedRun sCopy 0 false (lit " ") false (lit "\"") (lit "\"") true
    let sRest ← tokenQuotedRun sCopy 1 true (lit " ") false (lit "\"") (lit "\"") false
    return (sRest, msRet.insert (keyName bUpperKeys sKeyName) sValue)
  | sKeyName :: vsNames, sCopy, msRet => storeNames bUpperKeys vsNames sCopy (msRet.insert (keyName bUpperKeys sKeyName) [])

theorem bind_eq_ok {α β : Type} {x : Except Stop α} {f : α → Except Stop β} {b : β} (h : x >>= f = .ok b) :
    ∃ a, x = .ok a ∧ f a = .ok b := by
  cases x with
  | error e => cases h
  | ok a => exact ⟨a, rfl, h⟩

theorem length_storeNames {bUpperKeys : Bool} {vsNames : VCString} {sCopy : CString} {msRet : MCString} {r : CString × MCString}
    (h : storeNames bUpperKeys vsNames sCopy msRet = .ok r) : r.1.length ≤ sCopy.length := by
  fun_induction storeNames bUpperKeys vsNames sCopy msRet with
  | case1 =>
    cases h
    exact le_rfl
  | case2 sKeyName sCopy msRet =>
    obtain ⟨sValue, -, h⟩ := bind_eq_ok h
    obtain ⟨sRest, hrest, h⟩ := bind_eq_ok h
    cases h
    obtain hlt | hnil := length_tokenQuotedRun hrest
    · exact hlt.le
    · exact hnil ▸ Nat.zero_le _
  | case3 _ _ _ _ _ ih => exact ih h

theorem length_behind {sCopy sRest : CString} (hne : sCopy ≠ [])
    (h : tokenQuotedRun sCopy 1 true (lit "=") false (lit "\"") (lit "\"") false = .ok sRest) :
    (sRest.trimLeft Config.blanks).length < sCopy.length := by
  have hle : (sRest.trimLeft Config.blanks).length ≤ sRest.length := (dropWhile_sublist _).length_le
  obtain hlt | hnil := length_tokenQuotedRun h
  · exact hle.trans_lt hlt
  · rw [hnil]
    exact length_pos_iff.2 hne

def optionLoop (bUpperKeys : Bool) (sCopy : CString) (msRet : MCString) : Except Stop MCString :=
  if sCopy = [] then .ok msRet
  else
    match tokenQuotedRun sCopy 0 false (lit "=") false (lit "\"") (lit "\"") false with
    | .error e => .error e
    | .ok sFirst =>
      match _hrest : tokenQuotedRun sCopy 1 true (lit "=") false (lit "\"") (lit "\"") false with
      | .error e => .error e
      | .ok sRest =>
        if Config.trim sFirst = [] then optionLoop bUpperKeys (sRest.trimLeft Config.blanks) msRet
        else
          match splitRun (Config.trim sFirst) quoteArgs with
          | .error e => .error e
          | .ok vsNames =>
            match _hstored : storeNames bUpperKeys vsNames (sRest.trimLeft Config.blanks) msRet with
            | .error e => .error e
            | .ok (sCopy, msRet) => optionLoop bUpperKeys sCopy msRet
termination_by sCopy.length
decreasing_by
  · exact length_behind (by assumption) _hrest
  · exact (length_storeNames _hstored).trans_lt (length_behind (by assumption) _hrest)

/-- `OptionSplit(msRet, bUpperKeys)`: `msRet` -/
def optionSplit (s : CString) (bUpperKeys : Bool) : Except Stop MCString := optionLoop bUpperKeys s .empty

/-! ## Which scanners return -/

theorem ok_of_ends {α : Type} {x : Except Stop α} (h1 : x ≠ .error .endless) (h2 : x ≠ .error .outside) : ∃ y, x = .ok y := by
  cases x with
  | error e =>
    cases e with
    | endless => exact absurd rfl h1
    | outside => exact absurd rfl h2
  | ok y => exact ⟨y, rfl⟩

theorem tokenQuotedRun_ok {sLeft sRight : CString} (hne : sSep ≠ []) {bAllowEmpty bTrimQuotes : Bool}
    (ha : NulFree ⟨sSep, bAllowEmpty, sLeft, sRight, bTrimQuotes, false⟩) (s : CString) (uPos : ℕ) (bRest : Bool) :
    ∃ t, tokenQuotedRun s uPos bRest sSep bAllowEmpty sLeft sRight bTrimQuotes = .ok t :=
  ok_of_ends (fun h => hne (tokenQuotedRun_endless_iff.1 h).1) (tokenQuotedRun_inside ha s uPos bRest)

theorem storeNames_ok (bUpperKeys : Bool) (vsNames : VCString) (sCopy : CString) (msRet : MCString) :
    ∃ r, storeNames bUpperKeys vsNames sCopy msRet = .ok r := by
  fun_induction storeNames bUpperKeys vsNames sCopy msRet with
  | case1 => exact ⟨_, rfl⟩
  | case2 sKeyName sCopy msRet =>
    obtain ⟨sValue, hvalue⟩ := @tokenQuotedRun_ok (lit " ") (lit "\"") (lit "\"") (by decide) false true
      ⟨by decide, by decide, by decide⟩ sCopy 0 false
    obtain ⟨sRest, hrest⟩ := @tokenQuotedRun_ok (lit " ") (lit "\"") (lit "\"") (by decide) false false
      ⟨by decide, by decide, by decide⟩ sCopy 1 true
    rw [hvalue, hrest]
    exact ⟨_, rfl⟩
  | case3 _ _ _ _ _ ih => exact ih

/-- **`OptionSplit` returns,** whatever the text: each round leaves less of it. -/
theorem optionLoop_ok (bUpperKeys : Bool) (sCopy : CString) (msRet : MCString) :
    ∃ ms, optionLoop bUpperKeys sCopy msRet = .ok ms := by
  have htoken (s : CString) (uPos : ℕ) (bRest : Bool) :
      ∃ t, tokenQuotedRun s uPos bRest (lit "=") false (lit "\"") (lit "\"") false = .ok t :=
    tokenQuotedRun_ok (by decide) ⟨by decide, by decide, by decide⟩ s uPos bRest
  fun_induction optionLoop bUpperKeys sCopy msRet with
  | case1 => exact ⟨_, rfl⟩
  | case2 sCopy msRet _ e he =>
    obtain ⟨t, ht⟩ := htoken sCopy 0 false
    exact absurd (he.symm.trans ht) (by simp)
  | case3 sCopy msRet _ _ _ e he =>
    obtain ⟨t, ht⟩ := htoken sCopy 1 true
    exact absurd (he.symm.trans ht) (by simp)
  | case4 _ _ _ _ _ _ _ _ ih => exact ih
  | case5 sCopy msRet _ sFirst _ _ _ _ e he =>
    obtain ⟨vs, hvs⟩ := ok_of_ends (fun h => by simpa [quoteArgs, lit] using (splitRun_endless_iff.1 h).2.1)
      (splitRun_inside ⟨by decide, by decide, by decide⟩ (Config.trim sFirst)) (x := splitRun (Config.trim sFirst) quoteArgs)
    exact absurd (he.symm.trans hvs) (by simp)
  | case6 sCopy msRet _ _ _ sRest _ _ vsNames _ e he =>
    obtain ⟨r, hr⟩ := storeNames_ok bUpperKeys vsNames (sRest.trimLeft Config.blanks) msRet
    exact absurd (he.symm.trans hr) (by simp)
  | case7 _ _ _ _ _ _ _ _ _ _ _ _ _ ih => exact ih

/-- **Which scanners end:** all but `Split` and `Token` with an empty separator that skip empty tokens, and `Replace` without a needle
at a letter outside the quoted sections. Only a NUL in a separator or quote can make them leave the string. -/
theorem scanners_end_iff (s : CString) (a : SplitArgs) (r : ReplaceArgs) (uPos : ℕ) (bRest : Bool) (sSep : CString)
    (bAllowEmpty : Bool) (sLeft sRight : CString) (bTrimQuotes bUpperKeys : Bool) :
    (splitRun s a ≠ .error .endless ↔ s = [] ∨ a.sDelim ≠ [] ∨ a.bAllowEmpty = true) ∧
      (tokenRun s uPos bRest sSep bAllowEmpty ≠ .error .endless ↔ sSep ≠ [] ∨ bAllowEmpty = true) ∧
      (tokenQuotedRun s uPos bRest sSep bAllowEmpty sLeft sRight bTrimQuotes ≠ .error .endless ↔
        sSep ≠ [] ∨ bAllowEmpty = true) ∧
      (replaceRun s r ≠ .error .endless ↔ r.sReplace ≠ [] ∨ Sectioned r.sLeft r.sRight false s) ∧
      (∃ msRet, optionSplit s bUpperKeys = .ok msRet) ∧
      (NulFree a → splitRun s a ≠ .error .outside) ∧
      ((0 : UInt8) ∉ sSep → tokenRun s uPos bRest sSep bAllowEmpty ≠ .error .outside) ∧
      (NulFree ⟨sSep, bAllowEmpty, sLeft, sRight, bTrimQuotes, false⟩ →
        tokenQuotedRun s uPos bRest sSep bAllowEmpty sLeft sRight bTrimQuotes ≠ .error .outside) ∧
      ((0 : UInt8) ∉ r.sReplace → (0 : UInt8) ∉ r.sLeft → (0 : UInt8) ∉ r.sRight → replaceRun s r ≠ .error .outside) := by
  refine ⟨?_, ?_, ?_, ?_, optionLoop_ok bUpperKeys s .empty, fun ha => splitRun_inside ha s,
    fun h => tokenRun_inside h s uPos bRest bAllowEmpty, fun ha => tokenQuotedRun_inside ha s uPos bRest,
    fun hneedle hleft hright h => replaceLoop_inside hneedle hleft hright false [] 0 s (map_outside_iff.1 h)⟩
  · rw [ne_eq, splitRun_endless_iff, not_and_or, not_and_or, not_not, Bool.not_eq_false]
  · rw [ne_eq, tokenRun_endless_iff, not_and_or, Bool.not_eq_false]
  · rw [ne_eq, tokenQuotedRun_endless_iff, not_and_or, Bool.not_eq_false]
  · rw [ne_eq, replaceRun_endless_iff, not_and_or, not_not]

theorem scanners_end_blank : NulFree (plainArgs (lit " ") false) ∧ splitRun (lit "a b") (plainArgs (lit " ") false) ≠ .error .outside ∧
    splitRun (lit "a b") (plainArgs (lit " ") false) ≠ .error .endless := by
  obtain ⟨hends, -, -, -, -, hinside, -⟩ := scanners_end_iff (lit "a b") (plainArgs (lit " ") false)
    ⟨lit "a", [], [], [], false⟩ 0 false [] false [] [] false false
  have hfree : NulFree (plainArgs (lit " ") false) := ⟨by decide, by decide, by decide⟩
  exact ⟨hfree, hinside hfree, hends.2 (.inr (.inl (by decide)))⟩

/-- **Empty separators and needles** for which the scanners do not return. -/
theorem scanners_stay : splitRun (lit "a") (plainArgs [] false) = .error .endless ∧
    tokenRun (lit "a") 0 false [] false = .error .endless ∧
    replaceRun (lit "a") ⟨[], lit "b", [], [], false⟩ = .error .endless := by
  refine ⟨splitRun_endless_iff.2 ⟨by decide, rfl, rfl⟩, tokenRun_endless_iff.2 ⟨rfl, rfl⟩, replaceRun_endless_iff.2 ⟨rfl, ?_⟩⟩
  intro h
  cases h with
  | ended h => exact absurd h (by decide)
  | opened hne _ _ => exact hne rfl

end ZNC.ScanEnds
