/-
Byte strings: `CString` of `src/ZNCString.cpp`, as the message code uses it.

A `CString` is a list of bytes, NUL and the high bytes included. Functions that go through `c_str()` (`Equals`, the
prefix and suffix tests built on it, `Split`) see the string only up to its first NUL; functions of `std::string` (`find`,
`substr`, `Left`) see all of it. Character classes are those of the "C" locale: the program never sets another one.
-/
import Mathlib.Data.List.TakeWhile
import ZNC.Lib.OrdMap

namespace ZNC

open List

instance instLinearOrderByte : LinearOrder UInt8 where
  le_refl := UInt8.le_refl
  le_trans _ _ _ := UInt8.le_trans
  lt_iff_le_not_ge a b := by simp only [UInt8.lt_iff_toNat_lt, UInt8.le_iff_toNat_le]; omega
  le_antisymm _ _ := UInt8.le_antisymm
  le_total := UInt8.le_total
  toDecidableLE := inferInstance

abbrev CString : Type := List UInt8

instance instLawfulBEqCString : LawfulBEq CString := inferInstance

abbrev VCString : Type := List CString

/-- `std::map<CString, CString>`: keys compare byte by byte, unsigned -/
abbrev MCString : Type := OrdMap CString CString

/-- `std::set<CString>` -/
abbrev SCString : Type := OrdSet CString

/-- the bytes of a character literal -/
def ch (c : Char) : UInt8 := c.toUInt8

/-- the bytes of a string literal -/
def lit (s : String) : CString := s.toList.map Char.toUInt8

/-! ## Character classes -/

def isdigit (c : UInt8) : Bool := ch '0' ≤ c && c ≤ ch '9'

def isupper (c : UInt8) : Bool := ch 'A' ≤ c && c ≤ ch 'Z'

def islower (c : UInt8) : Bool := ch 'a' ≤ c && c ≤ ch 'z'

def isalpha (c : UInt8) : Bool := isupper c || islower c

def isalnum (c : UInt8) : Bool := isalpha c || isdigit c

def isxdigit (c : UInt8) : Bool := isdigit c || (ch 'A' ≤ c && c ≤ ch 'F') || (ch 'a' ≤ c && c ≤ ch 'f')

def isspace (c : UInt8) : Bool := c = 0x20 || (0x09 ≤ c && c ≤ 0x0D)

def tolower (c : UInt8) : UInt8 := if isupper c then c + 0x20 else c

def toupper (c : UInt8) : UInt8 := if islower c then c - 0x20 else c

namespace CString

/-! ## C strings -/

/-- what `c_str()` shows to the C library: the bytes before the first NUL -/
def cStr (s : CString) : CString := s.takeWhile (fun c => c ≠ 0)

/-- `*(p + i)` for a pointer `p` into a string: past the last byte stands the terminator -/
def deref (p : CString) (i : ℕ) : UInt8 := p.getD i 0

def asLower (s : CString) : CString := s.map tolower

def asUpper (s : CString) : CString := s.map toupper

/-- `Equals(s)`: `strcasecmp` of the two C strings -/
def equals (s t : CString) : Bool := s.cStr.asLower = t.cStr.asLower

/-- `strncasecmp(s, t, n) == 0` -/
def strncasecmp (s t : CString) (n : ℕ) : Bool := equals (s.take n) (t.take n)

/-! ## Parts of a string -/

def left (s : CString) (uCount : ℕ) : CString := s.take uCount

def right (s : CString) (uCount : ℕ) : CString := s.drop (s.length - uCount)

def startsWith (s sPrefix : CString) : Bool := (s.left sPrefix.length).equals sPrefix

def endsWith (s sSuffix : CString) : Bool := (s.right sSuffix.length).equals sSuffix

/-- `Contains(s)`: case-insensitive `find` -/
def contains (s t : CString) : Bool := decide (t.asLower <:+: s.asLower)

/-- `TrimPrefix_n`: `LeftChomp` removes as many bytes as the prefix has -/
def trimPrefix_n (s sPrefix : CString) : CString := if s.startsWith sPrefix then s.drop sPrefix.length else s

/-- `TrimSuffix_n`: `RightChomp` removes as many bytes as the suffix has -/
def trimSuffix_n (s sSuffix : CString) : CString :=
  if (s.right sSuffix.length).equals sSuffix then s.take (s.length - sSuffix.length) else s

/-- `TrimLeft(s)`: cut before the first byte that is not one of `cs` -/
def trimLeft (s cs : CString) : CString := s.dropWhile (fun c => c ∈ cs)

/-- `TrimRight_n(s)`: cut after the last byte that is not one of `cs` -/
def trimRight_n (s cs : CString) : CString := (s.reverse.dropWhile (fun c => c ∈ cs)).reverse

/-- `Replace_n(c, "")` for one byte -/
def remove_n (s : CString) (c : UInt8) : CString := s.cStr.filter (· ≠ c)

/-- `CString(sep).Join(...)` -/
def join (sep : CString) (vs : VCString) : CString := sep.intercalate vs

/-- the scanner of `Split`: `sTmp` is the token being read, `p` what is left of the C string -/
def splitLoop (cDelim : UInt8) (bAllowEmpty : Bool) (sTmp : CString) : CString → VCString
  | [] => if sTmp = [] then [] else [sTmp]
  | c :: p =>
    if c = cDelim then
      -- a run of delimiters ends one token only, and none at the start, unless empty tokens are kept
      if bAllowEmpty || sTmp ≠ [] then sTmp :: splitLoop cDelim bAllowEmpty [] p
      else splitLoop cDelim bAllowEmpty [] p
    else splitLoop cDelim bAllowEmpty (sTmp ++ [c]) p

/-- `Split(sDelim, vsRet, bAllowEmpty)` for a delimiter of one byte that has no letter case, without quotes -/
def split (s : CString) (cDelim : UInt8) (bAllowEmpty : Bool) : VCString := splitLoop cDelim bAllowEmpty [] s.cStr

/-! ## Lemmas -/

theorem islower_tolower {b : UInt8} (h : isupper b = true) : islower (tolower b) = true := by
  have hbytes : (ch 'A').toNat = 65 ∧ (ch 'Z').toNat = 90 ∧ (ch 'a').toNat = 97 ∧ (ch 'z').toNat = 122 ∧
      (0x20 : UInt8).toNat = 32 := ⟨rfl, rfl, rfl, rfl, rfl⟩
  rw [tolower, if_pos h]
  simp only [isupper, islower, Bool.and_eq_true, decide_eq_true_eq, UInt8.le_iff_toNat_le, UInt8.toNat_add] at h ⊢
  omega

variable {s w : CString} {c cDelim : UInt8}

theorem tolower_eq_iff {b : UInt8} (hc : isalpha c = false) : tolower b = c ↔ b = c := by
  rw [isalpha, Bool.or_eq_false_iff] at hc
  by_cases hb : isupper b = true
  · constructor
    · intro h
      exact absurd (hc.2.symm.trans (h ▸ islower_tolower hb)) (by decide)
    · intro h
      exact absurd (hc.1.symm.trans (h ▸ hb)) (by decide)
  · rw [tolower, if_neg hb]

theorem toupper_eq_iff {b : UInt8} (hc : isalpha c = false) : toupper b = c ↔ b = c := by
  have hbytes : (ch 'A').toNat = 65 ∧ (ch 'Z').toNat = 90 ∧ (ch 'a').toNat = 97 ∧ (ch 'z').toNat = 122 :=
    ⟨rfl, rfl, rfl, rfl⟩
  rw [toupper]
  split_ifs with hlow
  · have hne : b ≠ c := by
      rintro rfl
      rw [isalpha, hlow, Bool.or_true] at hc
      cases hc
    refine ⟨fun heq => ?_, fun heq => absurd heq hne⟩
    -- a small letter becomes a capital one
    have hup : isalpha (b - 0x20) = true := by
      simp only [islower, isalpha, isupper, Bool.and_eq_true, Bool.or_eq_true, decide_eq_true_eq,
        UInt8.le_iff_toNat_le, UInt8.toNat_sub] at hlow ⊢
      have h20 : (0x20 : UInt8).toNat = 32 := rfl
      omega
    rw [heq, hc] at hup
    cases hup
  · rfl

theorem cStr_eq_self (h : (0 : UInt8) ∉ s) : s.cStr = s := by
  rw [cStr, takeWhile_eq_self_iff]
  intro c hc
  have : c ≠ 0 := fun h0 => h (h0 ▸ hc)
  simpa using this

theorem cStr_append (h : (0 : UInt8) ∉ s) (t : CString) : (s ++ t).cStr = s ++ t.cStr :=
  takeWhile_append_of_pos fun _ hc => decide_eq_true fun h0 => h (h0 ▸ hc)

theorem cStr_append_of_mem (h : (0 : UInt8) ∈ s) (t : CString) : (s ++ t).cStr = s.cStr := by
  unfold cStr
  rw [takeWhile_append, if_neg]
  intro h0
  have hall := takeWhile_eq_self_iff.1 ((List.takeWhile_prefix _).eq_of_length h0) 0 h
  exact absurd hall (by decide)

@[simp] theorem equals_refl (s : CString) : s.equals s = true := by simp [equals]

theorem equals_comm (s t : CString) : s.equals t = t.equals s := by simp [equals, eq_comm]

theorem equals_trans {t u : CString} (h1 : s.equals t) (h2 : t.equals u) : s.equals u := by
  simp only [equals, decide_eq_true_eq] at *; exact h1.trans h2

theorem equals_congr {t : CString} (h : s.equals t) (u : CString) : s.equals u = t.equals u := by
  simp only [equals, decide_eq_true_eq] at *; rw [h]

theorem startsWith_singleton (h : ∀ b, tolower b = tolower c ↔ b = c) (hc : c ≠ 0) :
    s.startsWith [c] = true ↔ s.head? = some c := by
  cases s with
  | nil => simp [startsWith, left, equals, cStr, asLower, hc]
  | cons b s =>
    by_cases hb : b = 0
    · subst hb
      simp [startsWith, left, equals, cStr, asLower, hc, eq_comm]
    · simp [startsWith, left, equals, cStr, asLower, hc, hb, h]

theorem startsWith_iff (hw : (0 : UInt8) ∉ w) (s : CString) :
    s.startsWith w = true ↔ w.asLower <+: s.asLower := by
  have hzero : ∀ t : CString, (0 : UInt8) ∈ t.asLower ↔ 0 ∈ t := by
    intro t
    rw [asLower, mem_map]
    constructor
    · rintro ⟨c, hc, hz⟩
      rwa [(tolower_eq_iff (by decide)).1 hz] at hc
    · exact fun h => ⟨0, h, (tolower_eq_iff (by decide)).2 rfl⟩
  have htake : (s.left w.length).asLower = s.asLower.take w.length := map_take
  rw [startsWith, equals, cStr_eq_self hw, decide_eq_true_eq]
  constructor
  · intro h
    have hlen := congrArg List.length h
    simp only [asLower, length_map] at hlen
    have hpre : (s.left w.length).cStr <+: s.left w.length := takeWhile_prefix _
    have heq : (s.left w.length).cStr = s.left w.length := by
      refine hpre.eq_of_length_le ?_
      rw [hlen, left, length_take]
      exact min_le_left _ _
    rw [heq, htake] at h
    rw [← h]
    exact take_prefix _ _
  · intro h
    have heq : w.asLower = s.asLower.take w.length := by
      have hlen : w.asLower.length = w.length := length_map _
      rw [← hlen]
      exact prefix_iff_eq_take.1 h
    have hno : (0 : UInt8) ∉ s.left w.length := by
      rw [← hzero, htake, ← heq, hzero]
      exact hw
    rw [cStr_eq_self hno, htake, heq]

theorem contains_singleton (h : ∀ b, tolower b = tolower c ↔ b = c) :
    s.contains [c] = true ↔ c ∈ s := by
  simp only [contains, asLower, map_cons, map_nil, decide_eq_true_eq, singleton_infix_iff, mem_map, h]
  simp

theorem join_cons (sep v : CString) (vs : VCString) : join sep (v :: vs) = v ++ vs.flatMap (sep ++ ·) := by
  unfold join
  induction vs generalizing v with
  | nil => simp
  | cons w vs ih => rw [intercalate_cons_cons, ih w, flatMap_cons, append_assoc, append_assoc]

theorem join_append_singleton (sep : CString) {vs : VCString} (h : vs ≠ []) (v : CString) :
    join sep (vs ++ [v]) = join sep vs ++ sep ++ v := by
  cases vs with
  | nil => exact absurd rfl h
  | cons w vs => simp [join_cons]

theorem splitLoop_append (hw : cDelim ∉ w) (bAllowEmpty : Bool) (sTmp r : CString) :
    splitLoop cDelim bAllowEmpty sTmp (w ++ r) = splitLoop cDelim bAllowEmpty (sTmp ++ w) r := by
  induction w generalizing sTmp with
  | nil => rw [nil_append, append_nil]
  | cons c w ih =>
    have hc : c ≠ cDelim := fun h => hw (by rw [h]; exact mem_cons_self)
    rw [cons_append, splitLoop, if_neg hc, ih fun h => hw (mem_cons_of_mem _ h), append_assoc, singleton_append]

theorem not_mem_join {sep : CString} (hsep : c ∉ sep) {ws : VCString} (hws : ∀ w ∈ ws, c ∉ w) :
    c ∉ join sep ws := by
  cases ws with
  | nil => exact not_mem_nil
  | cons w ws =>
    rw [join_cons, mem_append, mem_flatMap, not_or]
    refine ⟨hws w mem_cons_self, fun ⟨v, hv, hmem⟩ => ?_⟩
    rcases mem_append.1 hmem with h | h
    · exact hsep h
    · exact hws v (mem_cons_of_mem _ hv) h

theorem mem_split {bAllowEmpty : Bool} (hw : w ∈ s.split cDelim bAllowEmpty) :
    cDelim ∉ w ∧ 0 ∉ w ∧ (bAllowEmpty = false → w ≠ []) := by
  have hloop (p sTmp : CString) (hp : (0 : UInt8) ∉ p) (hTmp : cDelim ∉ sTmp ∧ (0 : UInt8) ∉ sTmp)
      (hw : w ∈ splitLoop cDelim bAllowEmpty sTmp p) : cDelim ∉ w ∧ 0 ∉ w ∧ (bAllowEmpty = false → w ≠ []) := by
    induction p generalizing sTmp with
    | nil =>
      rw [splitLoop] at hw
      split at hw
      · exact nomatch hw
      · rename_i hne
        rw [mem_singleton.1 hw]
        exact ⟨hTmp.1, hTmp.2, fun _ => hne⟩
    | cons c p ih =>
      have hp' : (0 : UInt8) ∉ p := fun h => hp (mem_cons_of_mem _ h)
      have hnil : cDelim ∉ ([] : CString) ∧ (0 : UInt8) ∉ ([] : CString) := ⟨not_mem_nil, not_mem_nil⟩
      rw [splitLoop] at hw
      split_ifs at hw with hc hkeep
      · rcases mem_cons.1 hw with rfl | hw
        · exact ⟨hTmp.1, hTmp.2, fun hno => by simpa [hno] using hkeep⟩
        · exact ih [] hp' hnil hw
      · exact ih [] hp' hnil hw
      · refine ih (sTmp ++ [c]) hp' ⟨?_, ?_⟩ hw
        · rw [mem_append, mem_singleton, not_or]
          exact ⟨hTmp.1, fun h => hc h.symm⟩
        · rw [mem_append, mem_singleton, not_or]
          exact ⟨hTmp.2, fun h => hp (h ▸ mem_cons_self)⟩
  refine hloop s.cStr [] (fun h => ?_) ⟨not_mem_nil, not_mem_nil⟩ hw
  have hne := mem_takeWhile_imp h
  exact absurd hne (by simp)

theorem subset_of_mem_split {bAllowEmpty : Bool} (hw : w ∈ s.split cDelim bAllowEmpty) :
    w ⊆ s := by
  have hloop : ∀ p t : CString, w ∈ splitLoop cDelim bAllowEmpty t p → w ⊆ t ++ p := by
    intro p
    induction p with
    | nil =>
      intro t hw
      rw [splitLoop] at hw
      split_ifs at hw
      · exact nomatch hw
      · rw [mem_singleton.1 hw]
        exact subset_append_left t []
    | cons c p ih =>
      intro t hw
      have hrest : ∀ hw : w ∈ splitLoop cDelim bAllowEmpty [] p, w ⊆ t ++ c :: p := fun hw =>
        List.Subset.trans (ih [] hw) (subset_append_of_subset_right t (subset_cons_self c p))
      rw [splitLoop] at hw
      split_ifs at hw
      · rcases mem_cons.1 hw with rfl | hw
        · exact subset_append_left w (c :: p)
        · exact hrest hw
      · exact hrest hw
      · have hmore := ih (t ++ [c]) hw
        rwa [append_assoc, singleton_append] at hmore
  exact List.Subset.trans (hloop s.cStr [] hw) (takeWhile_sublist _).subset

theorem split_join {bAllowEmpty : Bool} {cDelim : UInt8} (h0 : cDelim ≠ 0) {ws : VCString}
    (hws : ∀ w ∈ ws, w ≠ [] ∧ cDelim ∉ w ∧ 0 ∉ w) : (join [cDelim] ws).split cDelim bAllowEmpty = ws := by
  have hloop : ∀ (ws : VCString) (sTmp : CString), sTmp ≠ [] → (∀ w ∈ ws, w ≠ [] ∧ cDelim ∉ w) →
      splitLoop cDelim bAllowEmpty sTmp (ws.flatMap ([cDelim] ++ ·)) = sTmp :: ws := by
    intro ws
    induction ws with
    | nil =>
      intro sTmp hne _
      rw [flatMap_nil, splitLoop, if_neg hne]
    | cons w ws ih =>
      intro sTmp hne hws
      obtain ⟨hwne, hw⟩ := hws w mem_cons_self
      have hsep : (bAllowEmpty || decide (sTmp ≠ [])) = true := by
        rw [decide_eq_true hne, Bool.or_true]
      calc splitLoop cDelim bAllowEmpty sTmp ((w :: ws).flatMap ([cDelim] ++ ·))
          = splitLoop cDelim bAllowEmpty sTmp (cDelim :: (w ++ ws.flatMap ([cDelim] ++ ·))) := by
            rw [flatMap_cons, append_assoc, singleton_append]
        _ = sTmp :: splitLoop cDelim bAllowEmpty [] (w ++ ws.flatMap ([cDelim] ++ ·)) := by
            rw [splitLoop, if_pos rfl, if_pos hsep]
        _ = sTmp :: splitLoop cDelim bAllowEmpty w (ws.flatMap ([cDelim] ++ ·)) := by
            rw [splitLoop_append hw, nil_append]
        _ = sTmp :: w :: ws := by rw [ih w hwne fun v hv => hws v (mem_cons_of_mem _ hv)]
  cases ws with
  | nil => rfl
  | cons w ws =>
    have hdelim : 0 ∉ [cDelim] := fun h => h0 (mem_singleton.1 h).symm
    have hnul := not_mem_join hdelim fun v hv => (hws v hv).2.2
    obtain ⟨hne, hw, -⟩ := hws w mem_cons_self
    rw [split, cStr_eq_self hnul, join_cons, splitLoop_append hw, nil_append,
      hloop ws w hne fun v hv => ⟨(hws v (mem_cons_of_mem _ hv)).1, (hws v (mem_cons_of_mem _ hv)).2.1⟩]

theorem split_join_getD (h0 : cDelim ≠ 0) {ws : VCString} (hws : ∀ w ∈ ws, cDelim ∉ w ∧ 0 ∉ w) (i : ℕ) :
    ((join [cDelim] ws).split cDelim true).getD i [] = ws.getD i [] := by
  have hloop (ws : VCString) (w : CString) (hws : ∀ w ∈ ws, cDelim ∉ w) (i : ℕ) :
      (splitLoop cDelim true w (ws.flatMap ([cDelim] ++ ·))).getD i [] = (w :: ws).getD i [] := by
    induction ws generalizing w i with
    | nil =>
      rw [flatMap_nil, splitLoop]
      split
      · rename_i hnil
        cases i <;> simp [hnil]
      · rfl
    | cons v vs ih =>
      have hrest := ih v fun u hu => hws u (mem_cons_of_mem _ hu)
      rw [flatMap_cons, append_assoc, singleton_append, splitLoop, if_pos rfl, Bool.true_or, if_pos rfl,
        splitLoop_append (hws v mem_cons_self), nil_append]
      cases i with
      | zero => rfl
      | succ i => exact hrest i
  cases ws with
  | nil => rfl
  | cons w ws =>
    have hdelim : 0 ∉ [cDelim] := fun h => h0 (mem_singleton.1 h).symm
    have hz := not_mem_join hdelim fun v hv => (hws v hv).2
    have hword := hloop ws w (fun v hv => (hws v (mem_cons_of_mem _ hv)).1) i
    rw [split, cStr_eq_self hz, join_cons, splitLoop_append (hws w mem_cons_self).1, nil_append, hword]

theorem isupper_tolower (b : UInt8) : isupper (tolower b) = false := by
  have hbytes : (ch 'A').toNat = 65 ∧ (ch 'Z').toNat = 90 ∧ (ch 'a').toNat = 97 ∧ (ch 'z').toNat = 122 :=
    ⟨rfl, rfl, rfl, rfl⟩
  by_cases hb : isupper b = true
  · have hlow := islower_tolower hb
    simp only [islower, isupper, Bool.and_eq_true, Bool.and_eq_false_iff, decide_eq_true_eq, decide_eq_false_iff_not,
      UInt8.le_iff_toNat_le] at hlow ⊢
    omega
  · rw [tolower, if_neg hb]
    simpa using hb

theorem asLower_asLower (s : CString) : s.asLower.asLower = s.asLower := by
  rw [asLower, asLower, map_map]
  refine map_congr_left fun c _ => ?_
  rw [Function.comp_apply, tolower, isupper_tolower, if_neg Bool.false_ne_true]

theorem mem_asLower (hc : isalpha c = false) : c ∈ s.asLower ↔ c ∈ s := by
  rw [asLower, mem_map]
  constructor
  · rintro ⟨b, hb, heq⟩
    rwa [← (tolower_eq_iff hc).1 heq]
  · intro h
    exact ⟨c, h, (tolower_eq_iff hc).2 rfl⟩

theorem asLower_cStr (s : CString) : s.asLower.cStr = s.cStr.asLower := by
  have hzero : (fun c : UInt8 => decide (c ≠ 0)) ∘ tolower = fun c => decide (c ≠ 0) := by
    funext c
    have hc : tolower c = 0 ↔ c = 0 := tolower_eq_iff (by decide)
    simp [hc]
  rw [cStr, cStr, asLower, asLower, takeWhile_map, hzero]

theorem equals_of_asLower {sName sOther : CString} (h : sName.asLower = sOther.asLower) :
    sName.equals sOther = true := by
  rw [equals, ← asLower_cStr, ← asLower_cStr, h]
  simp

end CString

end ZNC
