/-
`CString::Token` and `CString::Split` of `src/ZNCString.cpp` with separators of any length and with quotes.

Two scanners: `Token` looks for the separator with `strncmp` and moves a position, `Split` with `strncasecmp` and a pointer, letter
by letter or by a whole separator or quote. Both go by the length of the separator, so with a NUL in it they can leave the string,
and with an empty one they can stay where they are: then the result is `none`.

Results:
- `splitText_plain`, `tokenText_eq`: without quotes both give the pieces of the text between separators;
- `token_split`: the two scanners agree, and the tokens joined again are the text;
- `splitFrom_section`: a quoted section goes into one token as a whole;
- `tokenQuoted_iff`: when `Token` with quotes is an element of the quoted `Split`.
-/
import ZNC.Config
import ZNC.Lib.Pieces
import ZNC.PathPrefix

namespace ZNC.CString

open Pieces List

/-! ## Model -/

/-- `strncmp(p, sSep, sSep.length()) == 0` -/
def strncmp (p sSep : CString) : Bool := (p.left sSep.length).cStr = sSep.cStr

/-- `while (cmp(p, sSep, len) == 0) p += len` -/
def skipWhile (cmp : CString → Bool) (sSep : CString) (p : CString) : Option CString :=
  if cmp p then
    if sSep = [] ∨ p.length < sSep.length then none else skipWhile cmp sSep (p.drop sSep.length)
  else some p
termination_by p.length
decreasing_by
  rename_i h
  rw [not_or, not_lt] at h
  have hpos := length_pos_iff.2 h.1
  rw [length_drop]
  omega

theorem length_skipWhile {cmp : CString → Bool} {sSep p q : CString} (h : skipWhile cmp sSep p = some q) :
    q.length ≤ p.length := by
  fun_induction skipWhile cmp sSep p with
  | case1 => exact absurd h (by simp)
  | case2 p _ _ ih =>
    have hle := ih h
    rw [length_drop] at hle
    omega
  | case3 => rw [Option.some.inj h]

structure SplitArgs where
  sDelim : CString
  bAllowEmpty : Bool
  sLeft : CString
  sRight : CString
  bTrimQuotes : Bool
  bTrimWhiteSpace : Bool

/-- `uLeftLen && uRightLen` -/
def SplitArgs.quotes (a : SplitArgs) : Bool := a.sLeft ≠ [] && a.sRight ≠ []

def SplitArgs.isDelim (a : SplitArgs) (p : CString) : Bool := strncasecmp p a.sDelim a.sDelim.length

/-- a token as it is pushed back -/
def SplitArgs.token (a : SplitArgs) (sTmp : CString) : CString := if a.bTrimWhiteSpace then Config.trim sTmp else sTmp

/-- `p += uDelimLen` and the delimiters behind it -/
def SplitArgs.behindDelim (a : SplitArgs) (p : CString) : Option CString :=
  if p.length < a.sDelim.length then none
  else if a.bAllowEmpty then some (p.drop a.sDelim.length)
  else skipWhile a.isDelim a.sDelim (p.drop a.sDelim.length)

variable {a : SplitArgs}

theorem SplitArgs.length_behindDelim {p q : CString} (h : a.behindDelim p = some q) :
    q.length ≤ p.length - a.sDelim.length ∧ a.sDelim.length ≤ p.length := by
  unfold behindDelim at h
  split at h
  · exact absurd h (by simp)
  · case isFalse hle =>
    split at h
    · rw [← Option.some.inj h, length_drop]
      omega
    · have hskip := length_skipWhile h
      rw [length_drop] at hskip
      omega

def splitFrom (a : SplitArgs) (bInside : Bool) (sTmp : CString) (p : CString) : Option VCString :=
  -- the terminator, or a NUL before it
  if p.head?.getD 0 = 0 then some (if sTmp = [] then [] else [a.token sTmp])
  else if a.quotes && !bInside && strncasecmp p a.sLeft a.sLeft.length then
    if p.length < a.sLeft.length then none
    else splitFrom a true (sTmp ++ if a.bTrimQuotes then [] else a.sLeft) (p.drop a.sLeft.length)
  else if a.quotes && bInside && strncasecmp p a.sRight a.sRight.length then
    if p.length < a.sRight.length then none
    else splitFrom a false (sTmp ++ if a.bTrimQuotes then [] else a.sRight) (p.drop a.sRight.length)
  else if a.sDelim ≠ [] ∧ !bInside ∧ a.isDelim p then
    match _hq : a.behindDelim p with
    | none => none
    | some q => (splitFrom a false [] q).map (a.token sTmp :: ·)
  else splitFrom a bInside (sTmp ++ p.take 1) (p.drop 1)
termination_by p.length
decreasing_by
  · have hpos : 0 < a.sLeft.length := length_pos_iff.2 (by simp_all [SplitArgs.quotes])
    rw [length_drop]
    omega
  · have hpos : 0 < a.sRight.length := length_pos_iff.2 (by simp_all [SplitArgs.quotes])
    rw [length_drop]
    omega
  · rename_i hdelim
    have hpos := length_pos_iff.2 hdelim.1
    have hle := SplitArgs.length_behindDelim _hq
    omega
  · have hpos : 0 < p.length := length_pos_iff.2 (by rintro rfl; simp_all)
    rw [length_drop]
    omega

/-- `Split(sDelim, vsRet, bAllowEmpty, sLeft, sRight, bTrimQuotes, bTrimWhiteSpace)` -/
def splitText (s : CString) (a : SplitArgs) : Option VCString :=
  if s = [] then some []
  else if a.bAllowEmpty then splitFrom a false [] s
  else (skipWhile a.isDelim a.sDelim s).bind (splitFrom a false [])

/-- the first loops of `Token`: the text from the start of the token `uPos` on -/
def tokenStart (sSep : CString) (bAllowEmpty : Bool) : ℕ → CString → Option CString
  | 0, p => some p
  | _ + 1, [] => some []
  | uPos + 1, c :: p =>
    if strncmp (c :: p) sSep then
      if (c :: p).length < sSep.length then none
      else if bAllowEmpty then tokenStart sSep bAllowEmpty uPos ((c :: p).drop sSep.length)
      else
        match skipWhile (strncmp · sSep) sSep ((c :: p).drop sSep.length) with
        | none => none
        | some q => tokenStart sSep bAllowEmpty uPos q
    else tokenStart sSep bAllowEmpty (uPos + 1) p
termination_by uPos p => (uPos, p.length)

/-- the last loop of `Token`: up to the next separator -/
def tokenEnd (sSep : CString) : CString → CString
  | [] => []
  | c :: p => if strncmp (c :: p) sSep then [] else c :: tokenEnd sSep p

/-- `Token(uPos, bRest, sSep, bAllowEmpty)` -/
def tokenText (s : CString) (uPos : ℕ) (bRest : Bool) (sSep : CString) (bAllowEmpty : Bool) : Option CString :=
  ((if bAllowEmpty then some s else skipWhile (strncmp · sSep) sSep s).bind (tokenStart sSep bAllowEmpty uPos)).map fun p =>
    if bRest then p else tokenEnd sSep p

/-- `Token(uPos, bRest, sSep, bAllowEmpty, sLeft, sRight, bTrimQuotes)` -/
def tokenQuoted (s : CString) (uPos : ℕ) (bRest : Bool) (sSep : CString) (bAllowEmpty : Bool) (sLeft sRight : CString)
    (bTrimQuotes : Bool) : Option CString :=
  (splitText s ⟨sSep, bAllowEmpty, sLeft, sRight, bTrimQuotes, false⟩).bind fun vsTokens =>
    if vsTokens.length > uPos then some (if bRest then sSep.join (vsTokens.drop uPos) else vsTokens.getD uPos [])
    else tokenText s uPos bRest sSep bAllowEmpty

/-! ## The comparisons -/

theorem strncmp_iff {sSep : CString} (h0 : (0 : UInt8) ∉ sSep) (p : CString) : strncmp p sSep = true ↔ sSep <+: p := by
  rw [strncmp, cStr_eq_self h0, decide_eq_true_eq]
  constructor
  · intro h
    have hpre : (p.left sSep.length).cStr <+: p := (List.takeWhile_prefix _).trans (List.take_prefix _ _)
    rwa [h] at hpre
  · intro h
    have htake : p.left sSep.length = sSep := (prefix_iff_eq_take.1 h).symm
    rw [htake, cStr_eq_self h0]

theorem strncasecmp_eq_startsWith (p t : CString) : strncasecmp p t t.length = p.startsWith t := by
  rw [strncasecmp, startsWith, left, take_length]

/-- a separator that both scanners find at the same places -/
structure Separator (sSep : CString) : Prop where
  ne : sSep ≠ []
  nul : (0 : UInt8) ∉ sSep
  letters : ∀ c ∈ sSep, isalpha c = false

theorem isDelim_iff (h : Separator a.sDelim) (p : CString) : a.isDelim p = true ↔ a.sDelim <+: p := by
  have hlower : a.sDelim.asLower = a.sDelim := (PathPrefix.asLower_eq_iff h.letters _).2 rfl
  rw [SplitArgs.isDelim, strncasecmp_eq_startsWith, startsWith_iff h.nul, hlower]
  constructor
  · intro hpre
    have htake : asLower (p.take a.sDelim.length) = a.sDelim := by
      rw [asLower, map_take]
      exact (prefix_iff_eq_take.1 hpre).symm
    rw [PathPrefix.asLower_eq_iff h.letters] at htake
    exact prefix_iff_eq_take.2 htake.symm
  · rintro ⟨r, rfl⟩
    refine ⟨asLower r, ?_⟩
    nth_rewrite 1 [← hlower]
    exact map_append.symm

theorem skipWhile_eq {cmp : CString → Bool} {sSep : CString} (hne : sSep ≠ []) (hcmp : ∀ p, cmp p = true ↔ sSep <+: p)
    (p : CString) : skipWhile cmp sSep p = some (skipSeps sSep p) := by
  induction p using sep_induction hne with
  | hnil =>
    have h : ¬sSep <+: [] := fun h => hne (prefix_nil.1 h)
    rw [skipWhile, if_neg (fun h' => h ((hcmp []).1 h')), skipSeps_eq_self h]
  | hskip l ih =>
    rw [skipWhile, if_pos ((hcmp _).2 (prefix_append _ _)), if_neg (by simp [hne]), drop_left, ih, skipSeps_sep hne]
  | hcons c l h _ => rw [skipWhile, if_neg (fun h' => h ((hcmp _).1 h')), skipSeps_eq_self h]

/-! ## The tokens of a text -/

/-- the pieces of a text that count as tokens: all but an empty last one, or all that are not empty -/
def tokensOf (sSep : CString) (bAllowEmpty : Bool) (s : CString) : VCString :=
  if bAllowEmpty then
    if (pieces sSep s).getLast? = some [] then (pieces sSep s).dropLast else pieces sSep s
  else (pieces sSep s).filter (· ≠ [])

/-- the pieces of a text behind the beginning of a token -/
def piecesAfter (sSep sTmp p : CString) : VCString := (pieces sSep p).modifyHead (sTmp ++ ·)

/-- without an empty last piece -/
def dropEmptyLast (ps : VCString) : VCString := if ps.getLast? = some [] then ps.dropLast else ps

theorem dropEmptyLast_cons (t : CString) {ps : VCString} (h : ps ≠ []) :
    dropEmptyLast (t :: ps) = t :: dropEmptyLast ps := by
  obtain ⟨p, ps, rfl⟩ := exists_cons_of_ne_nil h
  rw [dropEmptyLast, dropEmptyLast, getLast?_cons_cons]
  split <;> rfl

theorem getD_dropEmptyLast (ps : VCString) (i : ℕ) : (dropEmptyLast ps).getD i [] = ps.getD i [] := by
  rw [dropEmptyLast]
  split
  · case isTrue h =>
    obtain ⟨qs, rfl⟩ := getLast?_eq_some_iff.1 h
    rw [dropLast_concat, getD_eq_getElem?_getD, getD_eq_getElem?_getD, getElem?_append]
    split
    · rfl
    · case isFalse hi =>
      rw [getElem?_eq_none (not_lt.1 hi)]
      cases i - qs.length <;> rfl
  · rfl

theorem splitFrom_nil (a : SplitArgs) (bInside : Bool) (sTmp : CString) :
    splitFrom a bInside sTmp [] = some (if sTmp = [] then [] else [a.token sTmp]) := by
  have h0 : ([] : CString).head?.getD 0 = 0 := rfl
  rw [splitFrom, if_pos h0]

section Split

variable {a : SplitArgs} (hsep : Separator a.sDelim) (hquotes : a.quotes = false)
include hsep hquotes

theorem splitFrom_sep (sTmp : CString) {l q : CString} (hq : a.behindDelim (a.sDelim ++ l) = some q) :
    splitFrom a false sTmp (a.sDelim ++ l) = (splitFrom a false [] q).map (a.token sTmp :: ·) := by
  obtain ⟨c, t, ht⟩ := exists_cons_of_ne_nil hsep.ne
  have hc : ¬(a.sDelim ++ l).head?.getD 0 = 0 := by
    rw [ht]
    exact fun h => hsep.nul (by rw [ht]; exact mem_cons.2 (.inl h.symm))
  have hdelim : a.isDelim (a.sDelim ++ l) = true := (isDelim_iff hsep _).2 (prefix_append _ _)
  rw [splitFrom, if_neg hc, if_neg (by simp [hquotes]), if_neg (by simp [hquotes]), if_pos ⟨hsep.ne, rfl, hdelim⟩]
  split
  · case h_1 h => exact absurd (hq.symm.trans h) (by simp)
  · case h_2 r h => rw [Option.some.inj (hq.symm.trans h)]

theorem splitFrom_letter (sTmp : CString) {c : UInt8} {l : CString} (hc : c ≠ 0) (h : ¬a.sDelim <+: c :: l) :
    splitFrom a false sTmp (c :: l) = splitFrom a false (sTmp ++ [c]) l := by
  have hdelim : ¬a.isDelim (c :: l) = true := fun h' => h ((isDelim_iff hsep _).1 h')
  rw [splitFrom, if_neg (by simpa using hc), if_neg (by simp [hquotes]), if_neg (by simp [hquotes]),
    if_neg (fun h' => hdelim h'.2.2)]
  rfl

theorem splitFrom_allowEmpty (hallow : a.bAllowEmpty = true) (p : CString) (h0 : (0 : UInt8) ∉ p) (sTmp : CString) :
    splitFrom a false sTmp p = some ((dropEmptyLast (piecesAfter a.sDelim sTmp p)).map a.token) := by
  induction p using sep_induction hsep.ne generalizing sTmp with
  | hnil =>
    rw [splitFrom_nil, piecesAfter, pieces_nil, modifyHead_cons, append_nil]
    by_cases ht : sTmp = []
    · rw [if_pos ht, ht]
      rfl
    · rw [if_neg ht, dropEmptyLast, if_neg (by simpa using ht)]
      rfl
  | hskip l ih =>
    have hl : (0 : UInt8) ∉ l := fun h => h0 (mem_append_right _ h)
    have hq : a.behindDelim (a.sDelim ++ l) = some l := by
      rw [SplitArgs.behindDelim, if_neg (by simp), if_pos hallow, drop_left]
    have hnext : piecesAfter a.sDelim [] l = pieces a.sDelim l := by
      obtain ⟨q, qs, hqs⟩ := exists_cons_of_ne_nil (pieces_ne_nil hsep.ne l)
      rw [piecesAfter, hqs]
      rfl
    rw [splitFrom_sep hsep hquotes sTmp hq, ih hl, hnext, piecesAfter, pieces_sep hsep.ne, modifyHead_cons,
      append_nil, dropEmptyLast_cons _ (pieces_ne_nil hsep.ne l)]
    rfl
  | hcons c l h ih =>
    rw [mem_cons, not_or] at h0
    obtain ⟨q, qs, hqs⟩ := exists_cons_of_ne_nil (pieces_ne_nil hsep.ne l)
    rw [splitFrom_letter hsep hquotes sTmp (Ne.symm h0.1) h, ih h0.2, piecesAfter, piecesAfter, pieces_cons h, hqs]
    simp

theorem splitFrom_noEmpty (hallow : a.bAllowEmpty = false) (p : CString) (h0 : (0 : UInt8) ∉ p) :
    (∀ sTmp, sTmp ≠ [] →
        splitFrom a false sTmp p = some (((piecesAfter a.sDelim sTmp p).filter (· ≠ [])).map a.token)) ∧
      splitFrom a false [] (skipSeps a.sDelim p) = some (((pieces a.sDelim p).filter (· ≠ [])).map a.token) := by
  induction p using sep_induction hsep.ne with
  | hnil =>
    refine ⟨fun sTmp ht => ?_, ?_⟩
    · rw [splitFrom_nil, if_neg ht, piecesAfter, pieces_nil, modifyHead_cons, append_nil,
        filter_cons_of_pos (by simpa using ht)]
      rfl
    · rw [skipSeps_eq_self (fun h => hsep.ne (prefix_nil.1 h)), splitFrom_nil, pieces_nil]
      rfl
  | hskip l ih =>
    have hl : (0 : UInt8) ∉ l := fun h => h0 (mem_append_right _ h)
    have hskip := (ih hl).2
    have hq : a.behindDelim (a.sDelim ++ l) = some (skipSeps a.sDelim l) := by
      rw [SplitArgs.behindDelim, if_neg (by simp), if_neg (by simp [hallow]), drop_left,
        skipWhile_eq hsep.ne (isDelim_iff hsep)]
    refine ⟨fun sTmp ht => ?_, ?_⟩
    · rw [splitFrom_sep hsep hquotes sTmp hq, hskip, piecesAfter, pieces_sep hsep.ne, modifyHead_cons, append_nil,
        filter_cons_of_pos (by simpa using ht)]
      rfl
    · rw [skipSeps_sep hsep.ne, hskip, pieces_sep hsep.ne, filter_cons_of_neg (by simp)]
  | hcons c l h ih =>
    rw [mem_cons, not_or] at h0
    obtain ⟨q, qs, hqs⟩ := exists_cons_of_ne_nil (pieces_ne_nil hsep.ne l)
    have hround : ∀ sTmp, splitFrom a false sTmp (c :: l) =
        some (((piecesAfter a.sDelim sTmp (c :: l)).filter (· ≠ [])).map a.token) := by
      intro sTmp
      rw [splitFrom_letter hsep hquotes sTmp (Ne.symm h0.1) h, (ih h0.2).1 _ (by simp), piecesAfter, piecesAfter,
        pieces_cons h, hqs]
      simp
    refine ⟨fun sTmp _ => hround sTmp, ?_⟩
    rw [skipSeps_eq_self h, hround, piecesAfter, pieces_cons h, hqs]
    rfl

end Split

theorem splitText_plain (hsep : Separator a.sDelim) (hquotes : a.quotes = false) {s : CString}
    (h0 : (0 : UInt8) ∉ s) : splitText s a = some ((tokensOf a.sDelim a.bAllowEmpty s).map a.token) := by
  by_cases hs : s = []
  · rw [splitText, if_pos hs, hs, tokensOf, pieces_nil]
    cases a.bAllowEmpty <;> rfl
  · obtain ⟨q, qs, hqs⟩ := exists_cons_of_ne_nil (pieces_ne_nil hsep.ne s)
    rw [splitText, if_neg hs, tokensOf]
    cases hallow : a.bAllowEmpty with
    | true =>
      rw [if_pos rfl, if_pos rfl, splitFrom_allowEmpty hsep hquotes hallow s h0, piecesAfter, hqs]
      rfl
    | false =>
      rw [if_neg Bool.false_ne_true, if_neg Bool.false_ne_true, skipWhile_eq hsep.ne (isDelim_iff hsep),
        Option.bind_some, (splitFrom_noEmpty hsep hquotes hallow s h0).2]

/-! ## `Token` -/

variable {t l : CString}

theorem tokenStart_letter {sSep : CString} (h0 : (0 : UInt8) ∉ sSep) {c : UInt8} (h : ¬sSep <+: c :: l)
    (bAllowEmpty : Bool) (uPos : ℕ) :
    tokenStart sSep bAllowEmpty (uPos + 1) (c :: l) = tokenStart sSep bAllowEmpty (uPos + 1) l := by
  rw [tokenStart, if_neg (fun h' => h ((strncmp_iff h0 _).1 h'))]

section Token

variable {sSep : CString} (hne : sSep ≠ []) (h0 : (0 : UInt8) ∉ sSep)
include hne h0

theorem tokenEnd_eq (p : CString) : tokenEnd sSep p = (pieces sSep p).headD [] := by
  induction p using sep_induction hne with
  | hnil => rw [pieces_nil]; rfl
  | hskip l _ =>
    have hcmp : strncmp (sSep ++ l) sSep = true := (strncmp_iff h0 _).2 (prefix_append _ _)
    rw [pieces_sep hne]
    obtain ⟨c, t, ht⟩ := exists_cons_of_ne_nil hne
    rw [ht, cons_append] at hcmp ⊢
    rw [tokenEnd, if_pos hcmp]
    rfl
  | hcons c l h ih =>
    obtain ⟨q, qs, hqs⟩ := exists_cons_of_ne_nil (pieces_ne_nil hne l)
    rw [tokenEnd, if_neg (fun h' => h ((strncmp_iff h0 _).1 h')), ih, pieces_cons h, hqs]
    rfl

theorem tokenStart_sep (bAllowEmpty : Bool) (uPos : ℕ) (l : CString) :
    tokenStart sSep bAllowEmpty (uPos + 1) (sSep ++ l) =
      tokenStart sSep bAllowEmpty uPos (if bAllowEmpty then l else skipSeps sSep l) := by
  have hcmp : strncmp (sSep ++ l) sSep = true := (strncmp_iff h0 _).2 (prefix_append _ _)
  have hskip := skipWhile_eq hne (strncmp_iff h0) l
  have hdrop : (sSep ++ l).drop sSep.length = l := drop_left
  have hlen : ¬(sSep ++ l).length < sSep.length := by simp
  obtain ⟨c, t, ht⟩ := exists_cons_of_ne_nil hne
  have hcons : sSep ++ l = c :: (t ++ l) := by rw [ht, cons_append]
  rw [hcons] at hcmp hdrop hlen ⊢
  rw [tokenStart, if_pos hcmp, if_neg hlen, hdrop]
  cases bAllowEmpty with
  | true => rw [if_pos rfl, if_pos rfl]
  | false => rw [if_neg Bool.false_ne_true, if_neg Bool.false_ne_true, hskip]

theorem tokenStart_allowEmpty (p : CString) :
    ∀ uPos, ∃ q, tokenStart sSep true uPos p = some q ∧ tokenEnd sSep q = (pieces sSep p).getD uPos [] := by
  have hzero : ∀ p : CString, ∃ q, tokenStart sSep true 0 p = some q ∧ tokenEnd sSep q = (pieces sSep p).getD 0 [] := by
    intro p
    obtain ⟨q, qs, hqs⟩ := exists_cons_of_ne_nil (pieces_ne_nil hne p)
    refine ⟨p, by rw [tokenStart], ?_⟩
    rw [tokenEnd_eq hne h0, hqs]
    rfl
  induction p using sep_induction hne with
  | hnil =>
    intro uPos
    cases uPos with
    | zero => exact hzero []
    | succ uPos => exact ⟨[], by rw [tokenStart], by rw [pieces_nil]; rfl⟩
  | hskip l ih =>
    intro uPos
    cases uPos with
    | zero => exact hzero _
    | succ uPos =>
      rw [tokenStart_sep hne h0, if_pos rfl, pieces_sep hne, getD_cons_succ]
      exact ih uPos
  | hcons c l h ih =>
    intro uPos
    cases uPos with
    | zero => exact hzero _
    | succ uPos =>
      obtain ⟨q, qs, hqs⟩ := exists_cons_of_ne_nil (pieces_ne_nil hne l)
      have hl := ih (uPos + 1)
      rw [hqs, getD_cons_succ] at hl
      rw [tokenStart_letter h0 h, pieces_cons h, hqs, modifyHead_cons, getD_cons_succ]
      exact hl

theorem tokenStart_noEmpty (p : CString) :
    (∀ uPos, ∃ q, tokenStart sSep false (uPos + 1) p = some q ∧
        tokenEnd sSep q = ((pieces sSep p).tail.filter (· ≠ [])).getD uPos []) ∧
      ∀ uPos, ∃ q, tokenStart sSep false uPos (skipSeps sSep p) = some q ∧
        tokenEnd sSep q = ((pieces sSep p).filter (· ≠ [])).getD uPos [] := by
  induction p using sep_induction hne with
  | hnil =>
    refine ⟨fun uPos => ⟨[], by rw [tokenStart], by rw [pieces_nil]; rfl⟩,
      fun uPos => ⟨[], ?_, by rw [pieces_nil]; rfl⟩⟩
    rw [skipSeps_eq_self (fun h => hne (prefix_nil.1 h))]
    cases uPos <;> rw [tokenStart]
  | hskip l ih =>
    refine ⟨fun uPos => ?_, ?_⟩
    · rw [tokenStart_sep hne h0, if_neg Bool.false_ne_true, pieces_sep hne, tail_cons]
      exact ih.2 uPos
    · rw [skipSeps_sep hne, pieces_sep hne, filter_cons_of_neg (by simp)]
      exact ih.2
  | hcons c l h ih =>
    obtain ⟨q, qs, hqs⟩ := exists_cons_of_ne_nil (pieces_ne_nil hne l)
    have htail : ∀ uPos, ∃ r, tokenStart sSep false (uPos + 1) (c :: l) = some r ∧
        tokenEnd sSep r = ((pieces sSep (c :: l)).tail.filter (· ≠ [])).getD uPos [] := by
      intro uPos
      have hl := ih.1 uPos
      rw [hqs, tail_cons] at hl
      rw [tokenStart_letter h0 h, pieces_cons h, hqs, modifyHead_cons, tail_cons]
      exact hl
    refine ⟨htail, fun uPos => ?_⟩
    have hfilter : (pieces sSep (c :: l)).filter (· ≠ []) = (c :: q) :: qs.filter (· ≠ []) := by
      rw [pieces_cons h, hqs, modifyHead_cons, filter_cons_of_pos (by simp)]
    rw [skipSeps_eq_self h, hfilter]
    cases uPos with
    | zero =>
      refine ⟨c :: l, by rw [tokenStart], ?_⟩
      rw [tokenEnd_eq hne h0, pieces_cons h, hqs]
      rfl
    | succ uPos =>
      have hl := htail uPos
      rw [pieces_cons h, hqs, modifyHead_cons, tail_cons] at hl
      rw [getD_cons_succ]
      exact hl

theorem tokenText_eq (s : CString) (uPos : ℕ) (bAllowEmpty : Bool) :
    tokenText s uPos false sSep bAllowEmpty = some ((tokensOf sSep bAllowEmpty s).getD uPos []) := by
  rw [tokenText, tokensOf]
  cases bAllowEmpty with
  | true =>
    obtain ⟨q, hq, hend⟩ := tokenStart_allowEmpty hne h0 s uPos
    have hlast := getD_dropEmptyLast (pieces sSep s) uPos
    rw [dropEmptyLast] at hlast
    rw [if_pos rfl, if_pos rfl, Option.bind_some, hq, hlast, ← hend]
    rfl
  | false =>
    obtain ⟨q, hq, hend⟩ := (tokenStart_noEmpty hne h0 s).2 uPos
    rw [if_neg Bool.false_ne_true, if_neg Bool.false_ne_true, skipWhile_eq hne (strncmp_iff h0),
      Option.bind_some, hq, ← hend]
    rfl

end Token

/-! ## The two scanners together -/

/-- the arguments of a `Split` without quotes -/
def plainArgs (sSep : CString) (bAllowEmpty : Bool) : SplitArgs := ⟨sSep, bAllowEmpty, [], [], true, false⟩

theorem splitText_plainArgs {sSep : CString} (hsep : Separator sSep) {s : CString} (h0 : (0 : UInt8) ∉ s)
    (bAllowEmpty : Bool) :
    splitText s (plainArgs sSep bAllowEmpty) = some (tokensOf sSep bAllowEmpty s) := by
  have hsplit := splitText_plain (a := plainArgs sSep bAllowEmpty) hsep rfl h0
  have hid : (plainArgs sSep bAllowEmpty).token = id := rfl
  rw [hid, map_id] at hsplit
  exact hsplit

theorem join_tokensOf {sSep : CString} (hne : sSep ≠ []) {s : CString} (hend : ¬sSep <:+ s) :
    sSep.join (tokensOf sSep true s) = s := by
  have hpieces : sSep.intercalate (pieces sSep s) = s := intercalate_pieces hne s
  rw [tokensOf, if_pos rfl, join]
  by_cases hlast : (pieces sSep s).getLast? = some []
  · have hs : s = [] := by
      by_contra hs
      refine hend (getLast_pieces hne hs ?_)
      rw [getLast?_eq_getLast_of_ne_nil (pieces_ne_nil hne s)] at hlast
      exact Option.some.inj hlast
    rw [if_pos hlast, hs, pieces_nil]
    rfl
  · rw [if_neg hlast, hpieces]

/-- **`Token` and `Split` agree**: the token number `uPos` is that element of the split text, and empty behind the last one; and
what does not end in the separator is the tokens joined again. -/
theorem token_split {sSep : CString} (hsep : Separator sSep) {s : CString} (h0 : (0 : UInt8) ∉ s) :
    (∀ bAllowEmpty, ∃ vs, splitText s (plainArgs sSep bAllowEmpty) = some vs ∧
        ∀ uPos, tokenText s uPos false sSep bAllowEmpty = some (vs.getD uPos [])) ∧
      (¬sSep <:+ s → ∃ vs, splitText s (plainArgs sSep true) = some vs ∧ sSep.join vs = s) := by
  refine ⟨fun bAllowEmpty => ⟨_, splitText_plainArgs hsep h0 bAllowEmpty, ?_⟩, fun hend => ?_⟩
  · exact fun uPos => tokenText_eq hsep.ne hsep.nul s uPos bAllowEmpty
  · exact ⟨_, splitText_plainArgs hsep h0 true, join_tokensOf hsep.ne hend⟩

set_option maxRecDepth 2000 in
/-- with the separator of two dashes -/
theorem token_split_dashes :
    (∃ vs, splitText (lit "a---b") (plainArgs (lit "--") true) = some vs ∧
        tokenText (lit "a---b") 1 false (lit "--") true = some (vs.getD 1 [])) ∧
      ∃ vs, splitText (lit "a---b") (plainArgs (lit "--") true) = some vs ∧ (lit "--").join vs = lit "a---b" := by
  have hsep : Separator (lit "--") := ⟨by decide, by decide, by decide⟩
  have hnul : (0 : UInt8) ∉ lit "a---b" := by decide
  have h := token_split hsep hnul
  obtain ⟨vs, hsplit, htoken⟩ := h.1 true
  exact ⟨⟨vs, hsplit, htoken 1⟩, h.2 (by decide)⟩

/-- a NUL as the separator is found at the end of an empty string -/
theorem token_nul : tokenText [] 0 false [0] false = none ∧ splitText [] (plainArgs [0] false) = some [] := by
  refine ⟨?_, by rw [splitText, if_pos rfl]⟩
  have hskip : skipWhile (strncmp · [0]) [0] [] = none := by
    rw [skipWhile, if_pos (by decide), if_pos (by decide)]
  rw [tokenText, if_neg Bool.false_ne_true, hskip]
  rfl

/-! ## Separators of one byte -/

section Singleton

variable {c : UInt8}

theorem singleton_prefix_iff {b : UInt8} {p : CString} : [c] <+: b :: p ↔ b = c := by
  rw [cons_prefix_cons, and_iff_left nil_prefix, eq_comm]

theorem splitLoop_eq (bAllowEmpty : Bool) (sTmp p : CString) : splitLoop c bAllowEmpty sTmp p =
    if bAllowEmpty then dropEmptyLast (piecesAfter [c] sTmp p) else (piecesAfter [c] sTmp p).filter (· ≠ []) := by
  have hne : [c] ≠ [] := cons_ne_nil _ _
  induction p generalizing sTmp with
  | nil =>
    rw [splitLoop, piecesAfter, pieces_nil, modifyHead_cons, append_nil, dropEmptyLast]
    by_cases ht : sTmp = [] <;> simp [ht]
  | cons b p ih =>
    obtain ⟨q, qs, hqs⟩ := exists_cons_of_ne_nil (pieces_ne_nil hne p)
    have hstart : piecesAfter [c] [] p = pieces [c] p := by
      rw [piecesAfter, hqs]
      rfl
    by_cases hb : b = c
    · have hcut : piecesAfter [c] sTmp (b :: p) = sTmp :: pieces [c] p := by
        have h := pieces_sep hne p
        rw [singleton_append] at h
        rw [piecesAfter, hb, h, modifyHead_cons, append_nil]
      rw [splitLoop, if_pos hb, ih, hcut, hstart, dropEmptyLast_cons _ (pieces_ne_nil hne p)]
      cases bAllowEmpty with
      | true => simp
      | false => by_cases ht : sTmp = [] <;> simp [ht]
    · rw [splitLoop, if_neg hb, ih, piecesAfter, piecesAfter, pieces_cons (fun h => hb (singleton_prefix_iff.1 h)), hqs]
      simp

theorem splitText_singleton (hsep : Separator [c]) {s : CString} (h0 : (0 : UInt8) ∉ s) (bAllowEmpty : Bool) :
    splitText s (plainArgs [c] bAllowEmpty) = some (s.split c bAllowEmpty) := by
  obtain ⟨q, qs, hqs⟩ := exists_cons_of_ne_nil (pieces_ne_nil hsep.ne s)
  rw [splitText_plainArgs hsep h0, split, cStr_eq_self h0, splitLoop_eq, piecesAfter, hqs, tokensOf, hqs]
  rfl

theorem splitText_comma :
    splitText (lit "a,,b") (plainArgs [ch ','] false) = some (split (lit "a,,b") (ch ',') false) :=
  splitText_singleton ⟨cons_ne_nil _ _, by decide, forall_mem_singleton.2 (by decide)⟩ (by decide) false

theorem tokenEnd_singleton (hc : c ≠ 0) (p : CString) : tokenEnd [c] p = p.takeWhile (· ≠ c) := by
  have h0 : (0 : UInt8) ∉ [c] := by simpa using Ne.symm hc
  induction p with
  | nil => rfl
  | cons b p ih =>
    by_cases hb : b = c
    · rw [tokenEnd, if_pos ((strncmp_iff h0 _).2 (singleton_prefix_iff.2 hb)),
        takeWhile_cons_of_neg (by simpa using hb)]
    · rw [tokenEnd, if_neg (fun h => hb (singleton_prefix_iff.1 ((strncmp_iff h0 _).1 h))),
        takeWhile_cons_of_pos (by simpa using hb), ih]

theorem skipSeps_singleton (p : CString) : skipSeps [c] p = p.dropWhile (· = c) := by
  have hne : [c] ≠ [] := cons_ne_nil _ _
  induction p with
  | nil => rw [skipSeps_eq_self (fun h => hne (prefix_nil.1 h)), dropWhile_nil]
  | cons b p ih =>
    by_cases hb : b = c
    · have hskip := skipSeps_sep hne p
      rw [singleton_append] at hskip
      rw [dropWhile_cons_of_pos (by simpa using hb), ← ih, hb, hskip]
    · rw [dropWhile_cons_of_neg (by simpa using hb), skipSeps_eq_self (fun h => hb (singleton_prefix_iff.1 h))]

theorem tokenStart_singleton (hc : c ≠ 0) (bAllowEmpty : Bool) (p : CString) :
    (∀ uPos, tokenStart [c] bAllowEmpty uPos p = some (skipTokens c bAllowEmpty uPos p)) ∧
      ∀ uPos, tokenStart [c] bAllowEmpty uPos (skipSeps [c] p) =
        some (skipTokens c bAllowEmpty uPos (skipSeps [c] p)) := by
  have hne : [c] ≠ [] := cons_ne_nil _ _
  have h0 : (0 : UInt8) ∉ [c] := by simpa using Ne.symm hc
  induction p with
  | nil =>
    have hnil : ∀ uPos, tokenStart [c] bAllowEmpty uPos [] = some (skipTokens c bAllowEmpty uPos []) := by
      intro uPos
      cases uPos <;> rw [tokenStart] <;> rfl
    rw [skipSeps_eq_self (fun h => hne (prefix_nil.1 h))]
    exact ⟨hnil, hnil⟩
  | cons b p ih =>
    by_cases hb : b = c
    · subst hb
      refine ⟨fun uPos => ?_, ?_⟩
      · cases uPos with
        | zero => rw [tokenStart]; rfl
        | succ uPos =>
          have hsep := tokenStart_sep hne h0 bAllowEmpty uPos p
          rw [singleton_append] at hsep
          rw [hsep]
          cases bAllowEmpty with
          | true => rw [if_pos rfl, ih.1, skipTokens, if_pos rfl, if_neg (by simp)]
          | false => rw [if_neg Bool.false_ne_true, ih.2, skipTokens_run, skipSeps_singleton]
      · have hskip := skipSeps_sep hne p
        rw [singleton_append] at hskip
        rw [hskip]
        exact ih.2
    · have hnot : ¬[c] <+: b :: p := fun h => hb (singleton_prefix_iff.1 h)
      have hall : ∀ uPos, tokenStart [c] bAllowEmpty uPos (b :: p) = some (skipTokens c bAllowEmpty uPos (b :: p)) := by
        intro uPos
        cases uPos with
        | zero => rw [tokenStart]; rfl
        | succ uPos => rw [tokenStart_letter h0 hnot, ih.1, skipTokens, if_neg hb]
      rw [skipSeps_eq_self hnot]
      exact ⟨hall, hall⟩

theorem tokenText_singleton (hc : c ≠ 0) (s : CString) (uPos : ℕ) (bRest bAllowEmpty : Bool) :
    tokenText s uPos bRest [c] bAllowEmpty = some (s.token uPos bRest c bAllowEmpty) := by
  have h0 : (0 : UInt8) ∉ [c] := by simpa using Ne.symm hc
  have hstart := tokenStart_singleton hc bAllowEmpty s
  rw [tokenText, token]
  cases bAllowEmpty with
  | true =>
    rw [if_pos rfl, if_pos rfl, Option.bind_some, hstart.1]
    simp [tokenEnd_singleton hc]
  | false =>
    rw [if_neg Bool.false_ne_true, if_neg Bool.false_ne_true, skipWhile_eq (cons_ne_nil _ _) (strncmp_iff h0),
      Option.bind_some, hstart.2, skipSeps_singleton]
    simp [tokenEnd_singleton hc]

theorem tokenText_blank :
    tokenText (lit "a  b") 1 false [ch ' '] false = some (token (lit "a  b") 1 false (ch ' ') false) :=
  tokenText_singleton (by decide) _ 1 false false

end Singleton

/-! ## Quotes -/

theorem splitFrom_inside {c : UInt8} {p : CString} (hc : c ≠ 0)
    (hright : strncasecmp (c :: p) a.sRight a.sRight.length = false) (sTmp : CString) :
    splitFrom a true sTmp (c :: p) = splitFrom a true (sTmp ++ [c]) p := by
  rw [splitFrom, if_neg (by simpa using hc), if_neg (by simp), if_neg (by simp [hright]), if_neg (by simp)]
  rfl

theorem strncasecmp_append (h : l.asLower = t.asLower) (p : CString) :
    strncasecmp (l ++ p) t t.length = true := by
  have hlen : l.length = t.length := by
    have hlower := congrArg List.length h
    rwa [asLower, asLower, length_map, length_map] at hlower
  rw [strncasecmp, ← hlen, take_left, hlen, take_length]
  exact equals_of_asLower h

/-- a quote as it is kept in the token -/
def SplitArgs.kept (a : SplitArgs) (sQuote : CString) : CString := if a.bTrimQuotes then [] else sQuote

/-- at `l ++ (body ++ (r ++ p))` stands a quoted section: `r` is the first right quote behind `l` -/
structure Quoted (a : SplitArgs) (l body r p : CString) : Prop where
  quotes : a.quotes = true
  left : l.asLower = a.sLeft.asLower
  right : r.asLower = a.sRight.asLower
  nul : (0 : UInt8) ∉ l ++ (body ++ r)
  first : ∀ v, v <:+ body → v ≠ [] → strncasecmp (v ++ (r ++ p)) a.sRight a.sRight.length = false

theorem length_eq_of_asLower (h : l.asLower = t.asLower) : l.length = t.length := by
  have hlower := congrArg List.length h
  rwa [asLower, asLower, length_map, length_map] at hlower

theorem head_ne_zero (h : l.asLower = t.asLower) (ht : t ≠ []) (h0 : (0 : UInt8) ∉ l) (p : CString) :
    ¬(l ++ p).head?.getD 0 = 0 := by
  cases l with
  | nil => exact absurd (length_eq_zero_iff.1 (length_eq_of_asLower h).symm) ht
  | cons c l => exact fun hc => h0 (mem_cons.2 (.inl hc.symm))

theorem quotes_ne (h : a.quotes = true) : a.sLeft ≠ [] ∧ a.sRight ≠ [] := by
  rwa [SplitArgs.quotes, Bool.and_eq_true, decide_eq_true_eq, decide_eq_true_eq] at h

theorem splitFrom_open (hquotes : a.quotes = true) (hl : l.asLower = a.sLeft.asLower)
    (h0 : (0 : UInt8) ∉ l) (sTmp p : CString) :
    splitFrom a false sTmp (l ++ p) = splitFrom a true (sTmp ++ a.kept a.sLeft) p := by
  have hlen := length_eq_of_asLower hl
  rw [splitFrom, if_neg (head_ne_zero hl (quotes_ne hquotes).1 h0 p), if_pos (by simp [hquotes, strncasecmp_append hl]),
    if_neg (by simp [hlen]), ← hlen, drop_left]
  rfl

theorem splitFrom_close (hquotes : a.quotes = true) {r : CString} (hr : r.asLower = a.sRight.asLower)
    (h0 : (0 : UInt8) ∉ r) (sTmp p : CString) :
    splitFrom a true sTmp (r ++ p) = splitFrom a false (sTmp ++ a.kept a.sRight) p := by
  have hlen := length_eq_of_asLower hr
  rw [splitFrom, if_neg (head_ne_zero hr (quotes_ne hquotes).2 h0 p), if_neg (by simp),
    if_pos (by simp [hquotes, strncasecmp_append hr]), if_neg (by simp [hlen]), ← hlen, drop_left]
  rfl

theorem splitFrom_section {body r p : CString} (h : Quoted a l body r p) (sTmp : CString) :
    splitFrom a false sTmp (l ++ (body ++ (r ++ p))) =
      splitFrom a false (sTmp ++ a.kept a.sLeft ++ body ++ a.kept a.sRight) p := by
  obtain ⟨hquotes, hl, hr, h0, hfirst⟩ := h
  simp only [mem_append, not_or] at h0
  obtain ⟨hl0, hbody0, hr0⟩ := h0
  have hinside : ∀ t, splitFrom a true t (body ++ (r ++ p)) = splitFrom a true (t ++ body) (r ++ p) := by
    clear hl0
    induction body with
    | nil => simp
    | cons c body ih =>
      intro t
      rw [mem_cons, not_or] at hbody0
      have hround : splitFrom a true t (c :: (body ++ (r ++ p))) = splitFrom a true (t ++ [c]) (body ++ (r ++ p)) :=
        splitFrom_inside (Ne.symm hbody0.1) (hfirst (c :: body) suffix_rfl (cons_ne_nil _ _)) t
      rw [cons_append, hround, ih (fun v hv => hfirst v (hv.trans (suffix_cons c body))) hbody0.2, append_assoc,
        singleton_append]
  rw [splitFrom_open hquotes hl hl0, hinside, splitFrom_close hquotes hr hr0]

/-! ## `Token` with quotes -/

theorem length_le_of_strncasecmp {p : CString} (h0 : (0 : UInt8) ∉ t) (h : strncasecmp p t t.length = true) :
    t.length ≤ p.length := by
  rw [strncasecmp_eq_startsWith, startsWith_iff h0] at h
  have hle := h.length_le
  rwa [asLower, asLower, length_map, length_map] at hle

/-- the text from the start of the token `uPos` on, when the text is cut with no regard to quotes -/
def tokenFrom (s : CString) (uPos : ℕ) (sSep : CString) (bAllowEmpty : Bool) : Option CString :=
  (if bAllowEmpty then some s else skipWhile (strncmp · sSep) sSep s).bind (tokenStart sSep bAllowEmpty uPos)

/-- the text, cut at the separators with no regard to quotes, has no token `uPos` or an empty one -/
def NoToken (s : CString) (uPos : ℕ) (sSep : CString) (bAllowEmpty : Bool) : Prop :=
  if sSep = [] then bAllowEmpty = true
  -- such a separator is found at its first bytes: there is another one at once, or the end
  else if (0 : UInt8) ∈ sSep then ∃ p, tokenFrom s uPos sSep bAllowEmpty = some p ∧ (p = [] ∨ strncmp p sSep = true)
  else (tokensOf sSep bAllowEmpty s).getD uPos [] = []

theorem tokenEnd_eq_nil_iff (sSep p : CString) : tokenEnd sSep p = [] ↔ p = [] ∨ strncmp p sSep = true := by
  cases p with
  | nil => simp [tokenEnd]
  | cons c p =>
    rw [tokenEnd]
    split
    · case isTrue h => simp [h]
    · case isFalse h => simp [h]

theorem tokenText_nil_iff (s : CString) (uPos : ℕ) (sSep : CString) (bAllowEmpty : Bool) :
    tokenText s uPos false sSep bAllowEmpty = some [] ↔
      ∃ p, tokenFrom s uPos sSep bAllowEmpty = some p ∧ (p = [] ∨ strncmp p sSep = true) := by
  rw [tokenText, ← tokenFrom, Option.map_eq_some_iff]
  exact exists_congr fun p => and_congr_right fun _ => tokenEnd_eq_nil_iff sSep p

/-- an empty separator is everywhere -/
theorem tokenStart_empty (uPos : ℕ) (p : CString) : ∃ q, tokenStart [] true uPos p = some q := by
  induction uPos with
  | zero => exact ⟨p, by rw [tokenStart]⟩
  | succ uPos ih =>
    cases p with
    | nil => exact ⟨[], by rw [tokenStart]⟩
    | cons c p =>
      rw [tokenStart, if_pos (by simp [strncmp, left, cStr])]
      exact ih

theorem noToken_iff (s : CString) (uPos : ℕ) (sSep : CString) (bAllowEmpty : Bool) :
    tokenText s uPos false sSep bAllowEmpty = some [] ↔ NoToken s uPos sSep bAllowEmpty := by
  unfold NoToken
  split
  · case isTrue hnil =>
    have hall : ∀ p, strncmp p [] = true := fun p => by simp [strncmp, left, cStr]
    rw [hnil, tokenText_nil_iff, tokenFrom]
    cases bAllowEmpty with
    | true =>
      obtain ⟨q, hq⟩ := tokenStart_empty uPos s
      exact iff_of_true ⟨q, hq, .inr (hall q)⟩ rfl
    | false => simp [skipWhile, hall]
  · case isFalse hne =>
    split
    · exact tokenText_nil_iff s uPos sSep bAllowEmpty
    · case isFalse h0 => rw [tokenText_eq hne h0, Option.some_inj]

/-- **`Token` with quotes** is that element of the quoted `Split`, and empty behind the last one, if and only if there is such an
element, or the text without quotes has no such token. In the quoted `Split` a quoted section goes into one token. -/
theorem tokenQuoted_iff (s : CString) (uPos : ℕ) (sSep : CString) (bAllowEmpty : Bool) (sLeft sRight : CString)
    (bTrimQuotes : Bool) :
    ((∃ vs, splitText s ⟨sSep, bAllowEmpty, sLeft, sRight, bTrimQuotes, false⟩ = some vs ∧
        tokenQuoted s uPos false sSep bAllowEmpty sLeft sRight bTrimQuotes = some (vs.getD uPos [])) ↔
      ∃ vs, splitText s ⟨sSep, bAllowEmpty, sLeft, sRight, bTrimQuotes, false⟩ = some vs ∧
        (uPos < vs.length ∨ NoToken s uPos sSep bAllowEmpty)) ∧
      ∀ a l body r p, Quoted a l body r p → ∀ sTmp, splitFrom a false sTmp (l ++ (body ++ (r ++ p))) =
        splitFrom a false (sTmp ++ a.kept a.sLeft ++ body ++ a.kept a.sRight) p := by
  refine ⟨exists_congr fun vs => and_congr_right fun hsplit => ?_, fun a l body r p h => splitFrom_section h⟩
  rw [tokenQuoted, hsplit, Option.bind_some]
  by_cases hlen : uPos < vs.length
  · rw [if_pos hlen, if_neg Bool.false_ne_true]
    exact iff_of_true rfl (.inl hlen)
  · have hempty : vs.getD uPos [] = [] := by
      rw [getD_eq_getElem?_getD, getElem?_eq_none (not_lt.1 hlen)]
      rfl
    rw [if_neg hlen, hempty, or_iff_right hlen, noToken_iff]

/-- with double quotes and blanks -/
def quoteArgs : SplitArgs := ⟨lit " ", false, lit "\"", lit "\"", true, false⟩

/-- one quoted token, and the second word of the text as it stands -/
theorem tokenQuoted_fallback :
    splitText (lit "\"a b\"") quoteArgs = some [lit "a b"] ∧
      tokenQuoted (lit "\"a b\"") 1 false (lit " ") false (lit "\"") (lit "\"") true = some (lit "b\"") ∧
      [lit "a b"].getD 1 [] ≠ lit "b\"" := by
  have hquoted : Quoted quoteArgs (lit "\"") (lit "a b") (lit "\"") [] := by
    refine ⟨rfl, rfl, rfl, by decide, ?_⟩
    intro v hv hne
    have hmem : v ∈ (lit "a b").tails := (mem_tails _ _).2 hv
    have hall : ∀ v ∈ (lit "a b").tails, v ≠ [] → strncasecmp (v ++ (lit "\"" ++ [])) (lit "\"") 1 = false := by decide
    exact hall v hmem hne
  have hsplit : splitText (lit "\"a b\"") quoteArgs = some [lit "a b"] := by
    have hskip : skipWhile quoteArgs.isDelim quoteArgs.sDelim (lit "\"a b\"") = some (lit "\"a b\"") := by
      rw [skipWhile, if_neg (by decide)]
    have hfrom := splitFrom_section hquoted []
    rw [splitFrom_nil] at hfrom
    rw [splitText, if_neg (by decide), if_neg (by decide), hskip, Option.bind_some]
    exact hfrom
  have htokens : tokensOf (lit " ") false (lit "\"a b\"") = [lit "\"a", lit "b\""] := by
    have hpieces : pieces (lit " ") (lit "\"a b\"") = [lit "\"a", lit "b\""] := by
      have hsep := @pieces_sep _ _ (lit " ") (by decide) (lit "b\"")
      have htail : pieces (lit " ") (lit "b\"") = [lit "b\""] := by
        have h := @pieces_cons _ _ (lit " ") (ch 'b') (lit "\"") (by decide)
        have h' := @pieces_cons _ _ (lit " ") 0x22 [] (by decide)
        rw [pieces_nil] at h'
        rw [show lit "\"" = 0x22 :: [] from rfl, h'] at h
        exact h
      have h := @pieces_cons _ _ (lit " ") (ch 'a') (lit " b\"") (by decide)
      have h' := @pieces_cons _ _ (lit " ") 0x22 (lit "a b\"") (by decide)
      rw [htail] at hsep
      rw [show lit " b\"" = lit " " ++ lit "b\"" from rfl, hsep] at h
      rw [show lit "a b\"" = ch 'a' :: (lit " " ++ lit "b\"") from rfl, h] at h'
      exact h'
    rw [tokensOf, if_neg Bool.false_ne_true, hpieces]
    decide
  have hfallback := @tokenText_eq (lit " ") (by decide) (by decide) (lit "\"a b\"") 1 false
  rw [htokens] at hfallback
  refine ⟨hsplit, ?_, by decide⟩
  rw [tokenQuoted]
  have hargs : (⟨lit " ", false, lit "\"", lit "\"", true, false⟩ : SplitArgs) = quoteArgs := rfl
  rw [hargs, hsplit, Option.bind_some, if_neg (by decide), hfallback]
  rfl

end ZNC.CString
