/-
Lines put together from their parts: what `ToString` prints and what `Parse` reads.

A line is an optional word of tags, an optional prefix, a command and an optional text of parameters (`lineOf`). The tags
are the entries of the map in key order with escaped values (`tagsOf`), the parameters are separated by spaces with a
colon on the last one where it needs it (`showParams`).

Results:
- `toString_eq`: a message with a command and named tags prints as `lineOf` of its parts;
- `parse_lineOf`: `Parse` reads `lineOf` of parts without spaces back into the parts;
- `getParamsColon_eq`: below 2^32 parameters `GetParamsColon(0)` prints all of them;
-/
import ZNC.EscapeRoundTrip
import ZNC.Message

namespace ZNC.CMessage

open Words CString List

/-! ## Tags -/

/-- keys that the line format can carry -/
structure GoodKey (sKey : CString) : Prop where
  ne : sKey ≠ []
  noSpace : ch ' ' ∉ sKey
  noSemicolon : ch ';' ∉ sKey
  noEquals : ch '=' ∉ sKey

/-- every key can be carried -/
def GoodKeys (mssTags : MCString) : Prop := ∀ it ∈ mssTags.entries, GoodKey it.1

/-- the escaped text of every value is shorter than 2^32 bytes -/
def SmallValues (mssTags : MCString) : Prop := ∀ it ∈ mssTags.entries, escapedLength .EMSGTAG it.2 < 2 ^ 32

/-- a tag with its value escaped -/
def showTag (it : CString × CString) : CString :=
  if it.2 = [] then it.1 else it.1 ++ ch '=' :: escaped .EMSGTAG it.2

/-- the word of the tags behind its '@' -/
def tagsOf (mssTags : MCString) : Option CString :=
  if mssTags.isEmpty then none else some ((lit ";").join (mssTags.entries.map showTag))

theorem escaped_msgTag_clean (s : CString) : ch ' ' ∉ escaped .EMSGTAG s ∧ ch ';' ∉ escaped .EMSGTAG s := by
  have hbyte : ∀ c : UInt8, ch ' ' ∉ escapeTo .EMSGTAG c ∧ ch ';' ∉ escapeTo .EMSGTAG c := by decide +kernel
  have hesc : escaped .EMSGTAG s = s.flatMap (escapeTo .EMSGTAG) := rfl
  rw [hesc, mem_flatMap, mem_flatMap]
  constructor
  · intro h
    obtain ⟨c, -, hc⟩ := h
    exact (hbyte c).1 hc
  · intro h
    obtain ⟨c, -, hc⟩ := h
    exact (hbyte c).2 hc

variable (m : CMessage) (mssTags : MCString) {it : CString × CString} (bColon : Bool)

theorem showTag_clean (h : GoodKey it.1) : ch ' ' ∉ showTag it ∧ ch ';' ∉ showTag it := by
  obtain ⟨hsp, hsc⟩ := escaped_msgTag_clean it.2
  have h1 : ch ' ' ≠ ch '=' := by decide
  have h2 : ch ';' ≠ ch '=' := by decide
  unfold showTag
  split_ifs with hv
  · exact ⟨h.noSpace, h.noSemicolon⟩
  · simp [h.noSpace, h.noSemicolon, hsp, hsc, h1, h2]

theorem showTag_ne_nil (h : GoodKey it.1) : showTag it ≠ [] := by
  unfold showTag
  split_ifs with hv
  · exact h.ne
  · simp

theorem splitOn_join {c : UInt8} {vs : VCString} (hvs : vs ≠ []) (h : ∀ v ∈ vs, c ∉ v) :
    (join [c] vs).splitOn c = vs := splitOn_intercalate c h hvs

theorem tagText_eq (hv : escapedLength .EMSGTAG it.2 < 2 ^ 32) :
    tagText it = some (showTag it) := by
  unfold tagText showTag
  split_ifs with h0
  · rfl
  · rw [escape_n_ascii _ _ (lt_of_le_of_lt (length_le_escapedLength _ _) hv)]
    rfl

/-- **The loop of `ToString` over the tags** prints them joined by semicolons. -/
theorem tagsText_eq (hk : GoodKeys mssTags) (hv : SmallValues mssTags) :
    tagsText mssTags = some ((lit ";").join (mssTags.entries.map showTag)) := by
  -- once something is printed, each further tag adds a semicolon and itself
  have hloop : ∀ (l : List (CString × CString)) (s : CString), s ≠ [] →
      (∀ it ∈ l, escapedLength .EMSGTAG it.2 < 2 ^ 32) →
      l.foldlM (fun sTags it => (tagText it).map fun sTag => if sTags = [] then sTag else sTags ++ ch ';' :: sTag) s =
        some (s ++ (l.map showTag).flatMap (lit ";" ++ ·)) := by
    intro l
    induction l with
    | nil => intro s _ _; simp
    | cons it l ih =>
      intro s hs hl
      rw [foldlM_cons, tagText_eq (hl it mem_cons_self)]
      simp only [Option.map_some, if_neg hs, Option.bind_eq_bind, Option.bind_some]
      rw [ih _ (by simp) fun x hx => hl x (mem_cons_of_mem _ hx), map_cons, flatMap_cons, append_assoc]
      rfl
  unfold tagsText
  unfold GoodKeys at hk
  unfold SmallValues at hv
  cases he : mssTags.entries with
  | nil => rfl
  | cons it l =>
    rw [he] at hk hv
    rw [foldlM_cons, tagText_eq (hv it mem_cons_self), map_cons, join_cons]
    simp only [Option.map_some, if_true, Option.bind_eq_bind, Option.bind_some]
    exact hloop l _ (showTag_ne_nil (hk it mem_cons_self)) fun x hx => hv x (mem_cons_of_mem _ hx)

theorem tagsText_none {mssTags : MCString} {it : CString × CString} (hit : it ∈ mssTags.entries)
    (hv : 2 ^ 32 ≤ it.2.length) : tagsText mssTags = none := by
  have hone : tagText it = none := by
    have hne : it.2 ≠ [] := by
      intro h0
      rw [h0] at hv
      exact absurd hv (by decide)
    rw [tagText, if_neg hne, escape_n, escape_n_none _ _ _ hv, Option.map_none]
  have hloop : ∀ (l : List (CString × CString)) (s : CString), it ∈ l →
      l.foldlM (fun sTags it => (tagText it).map fun sTag => if sTags = [] then sTag else sTags ++ ch ';' :: sTag) s =
        none := by
    intro l
    induction l with
    | nil => intro s h; exact absurd h not_mem_nil
    | cons x l ih =>
      intro s h
      rw [foldlM_cons]
      rcases mem_cons.1 h with rfl | h
      · rw [hone]; rfl
      · cases tagText x with
        | none => rfl
        | some sTag => exact ih _ h
  exact hloop _ _ hit

theorem saveTag_showTag (mssTags : MCString) {it : CString × CString} (hk : GoodKey it.1)
    (hv : escapedLength .EMSGTAG it.2 < 2 ^ 32) : saveTag mssTags (showTag it) = some (mssTags.insert it.1 it.2) := by
  unfold saveTag showTag
  split_ifs with h0
  · rw [cut_of_not_mem hk.noEquals, h0]
    rfl
  · rw [cut_append hk.noEquals]
    simp only [Option.getD_some]
    rw [escape_n_escaped _ _ hv]
    rfl

theorem saveTag_none (mssTags : MCString) {it : CString × CString} (hk : GoodKey it.1)
    (hv : 2 ^ 32 ≤ escapedLength .EMSGTAG it.2) : saveTag mssTags (showTag it) = none := by
  have hne : it.2 ≠ [] := by
    intro h0
    rw [h0] at hv
    exact absurd hv (by decide)
  unfold saveTag showTag
  rw [if_neg hne, cut_append hk.noEquals]
  simp only [Option.getD_some]
  rw [escape_n, escape_n_none _ _ _ (by rw [length_escaped]; exact hv), Option.map_none]

theorem splitOn_tags {mssTags : MCString} (hk : GoodKeys mssTags) (hne : mssTags.isEmpty = false) :
    ((lit ";").join (mssTags.entries.map showTag)).splitOn (ch ';') = mssTags.entries.map showTag := by
  have hentries : mssTags.entries ≠ [] := by
    intro h0
    rw [OrdMap.isEmpty, h0] at hne
    exact absurd hne (by decide)
  refine splitOn_join (fun h => hentries (map_eq_nil_iff.1 h)) ?_
  intro v hv
  obtain ⟨it, hit, rfl⟩ := mem_map.1 hv
  exact (showTag_clean (hk it hit)).2

/-- **Reading the tags back.** -/
theorem parseTags_tagsOf (hk : GoodKeys mssTags) (hv : SmallValues mssTags) :
    parseTags (tagsOf mssTags) = some mssTags := by
  have hloop : ∀ (l : List (CString × CString)) (m : MCString), (∀ it ∈ l, GoodKey it.1) →
      (∀ it ∈ l, escapedLength .EMSGTAG it.2 < 2 ^ 32) →
      (l.map showTag).foldlM saveTag m = some (l.foldl (fun m e => m.insert e.1 e.2) m) := by
    intro l
    induction l with
    | nil => intro m _ _; rfl
    | cons it l ih =>
      intro m hk hv
      rw [map_cons, foldlM_cons, saveTag_showTag m (hk it mem_cons_self) (hv it mem_cons_self), foldl_cons]
      exact ih _ (fun x hx => hk x (mem_cons_of_mem _ hx)) fun x hx => hv x (mem_cons_of_mem _ hx)
  unfold tagsOf
  split_ifs with hempty
  · rw [(OrdMap.isEmpty_iff mssTags).1 hempty]
    rfl
  · rw [Bool.not_eq_true] at hempty
    unfold parseTags
    simp only
    rw [splitOn_tags hk hempty, hloop _ _ hk hv]
    exact congrArg some (OrdMap.ofList_entries mssTags)

theorem parseTags_none (hk : GoodKeys mssTags) (hv : ¬ SmallValues mssTags) :
    parseTags (tagsOf mssTags) = none := by
  have hbig : ∃ it ∈ mssTags.entries, 2 ^ 32 ≤ escapedLength .EMSGTAG it.2 := by
    unfold SmallValues at hv
    push Not at hv
    exact hv
  obtain ⟨it, hit, hbig⟩ := hbig
  have hloop : ∀ (l : List (CString × CString)) (m : MCString), it ∈ l → (l.map showTag).foldlM saveTag m = none := by
    intro l
    induction l with
    | nil => intro m h; exact nomatch h
    | cons x l ih =>
      intro m h
      rw [map_cons, foldlM_cons]
      rcases mem_cons.1 h with rfl | h
      · rw [saveTag_none m (hk it hit) hbig]
        rfl
      · cases saveTag m (showTag x) with
        | none => rfl
        | some m' => exact ih m' h
  have hempty : mssTags.isEmpty = false := by
    cases he : mssTags.entries with
    | nil => rw [he] at hit; exact nomatch hit
    | cons x l => rw [OrdMap.isEmpty, he]; rfl
  unfold tagsOf parseTags
  rw [hempty]
  simp only [Bool.false_eq_true, if_false]
  rw [splitOn_tags hk hempty]
  exact hloop _ _ hit

/-! ## Parameters -/

/-- a parameter that can only be the last one, behind a colon -/
def needsColon (sParam : CString) : Bool := sParam = [] || sParam.head? = some (ch ':') || ch ' ' ∈ sParam

/-- the parameters as they are printed: a colon stands before the last one if `bColon` or its text asks for it -/
def showParams (bColon : Bool) : VCString → VCString
  | [] => []
  | [p] => [if bColon || needsColon p then ch ':' :: p else p]
  | p :: q :: ps => p :: showParams bColon (q :: ps)

/-- whether the last parameter is printed with a colon -/
def colonShown (bColon : Bool) (vsParams : VCString) : Bool :=
  match vsParams.getLast? with
  | none => false
  | some p => bColon || needsColon p

/-- only the last parameter may need a colon -/
def Canonical (vsParams : VCString) : Prop := ∀ p ∈ vsParams.dropLast, needsColon p = false

theorem not_needsColon {p : CString} (h : needsColon p = false) :
    p ≠ [] ∧ p.head? ≠ some (ch ':') ∧ ch ' ' ∉ p := by
  simpa [needsColon, not_or, and_assoc] using h

theorem needsColon_eq (p : CString) :
    (decide (p = []) || p.startsWith (lit ":") || p.contains (lit " ")) = needsColon p := by
  have hcolon : ∀ b, tolower b = tolower (ch ':') ↔ b = ch ':' := fun b => tolower_eq_iff rfl
  have hspace : ∀ b, tolower b = tolower (ch ' ') ↔ b = ch ' ' := fun b => tolower_eq_iff rfl
  have h1 : p.startsWith (lit ":") = decide (p.head? = some (ch ':')) := by
    rw [Bool.eq_iff_iff, decide_eq_true_eq]
    exact startsWith_singleton hcolon (by decide)
  have h2 : p.contains (lit " ") = decide (ch ' ' ∈ p) := by
    rw [Bool.eq_iff_iff, decide_eq_true_eq]
    exact contains_singleton hspace
  rw [h1, h2, needsColon]

theorem showParams_ne_nil {vsParams : VCString} (h : vsParams ≠ []) :
    showParams bColon vsParams ≠ [] := by
  cases vsParams with
  | nil => exact absurd rfl h
  | cons p ps => cases ps <;> simp [showParams]

theorem head_join_showParams {vsParams : VCString} (hne : vsParams ≠ []) (h : Canonical vsParams) :
    ∃ c l, (lit " ").join (showParams bColon vsParams) = c :: l ∧ c ≠ ch ' ' := by
  have hword : ∀ p : CString, needsColon p = false → ∀ l, ∃ c l', p ++ l = c :: l' ∧ c ≠ ch ' ' := by
    intro p hp l
    obtain ⟨hp0, -, hsp⟩ := not_needsColon hp
    cases p with
    | nil => exact absurd rfl hp0
    | cons c p => exact ⟨c, p ++ l, rfl, fun h0 => hsp (by rw [h0]; exact mem_cons_self)⟩
  cases vsParams with
  | nil => exact absurd rfl hne
  | cons p ps =>
    cases ps with
    | nil =>
      rw [showParams, join_cons]
      split_ifs with hb
      · exact ⟨ch ':', _, rfl, by decide⟩
      · rw [Bool.not_eq_true, Bool.or_eq_false_iff] at hb
        exact hword p hb.2 _
    | cons q ps =>
      rw [showParams, join_cons]
      exact hword p (h p (by simp)) _

/-- **Reading the parameters back.** -/
theorem parseParams_showParams (vsParams : VCString) (h : Canonical vsParams) :
    parseParams ((lit " ").join (showParams bColon vsParams)) = (vsParams, colonShown bColon vsParams) := by
  induction vsParams with
  | nil => rw [showParams, join, intercalate_nil, parseParams]; rfl
  | cons p ps ih =>
    cases ps with
    | nil =>
      have hshow : colonShown bColon [p] = (bColon || needsColon p) := rfl
      have hone : ∀ s, (lit " ").join [s] = s := fun s => intercalate_singleton
      rw [showParams, hone, hshow]
      cases hb : bColon || needsColon p with
      | true => rw [if_pos rfl, parseParams, if_pos rfl]
      | false =>
        rw [Bool.or_eq_false_iff] at hb
        obtain ⟨hp0, hcol, hsp⟩ := not_needsColon hb.2
        cases p with
        | nil => exact absurd rfl hp0
        | cons c p =>
          have hc : c ≠ ch ':' := fun h0 => hcol (by rw [h0]; rfl)
          rw [if_neg Bool.false_ne_true, parseParams, if_neg hc, nextWord, word_of_not_mem hsp, parseParams]
    | cons q ps =>
      obtain ⟨hp0, hcol, hsp⟩ := not_needsColon (h p (by simp))
      have hrest : Canonical (q :: ps) := fun x hx => h x (by simp [hx])
      obtain ⟨c, l, hjoin, hc⟩ := head_join_showParams bColon (cons_ne_nil q ps) hrest
      have hcons : (lit " ").join (p :: showParams bColon (q :: ps)) =
          p ++ ch ' ' :: (lit " ").join (showParams bColon (q :: ps)) := by
        unfold join
        rw [intercalate_cons_of_ne_nil (showParams_ne_nil bColon (cons_ne_nil q ps))]
        simp [lit, ch]
      have hhead : ((lit " ").join (showParams bColon (q :: ps))).head? ≠ some (ch ' ') := by
        rw [hjoin]
        simpa using hc
      have hword : nextWord (p ++ ch ' ' :: (lit " ").join (showParams bColon (q :: ps))) =
          (p, (lit " ").join (showParams bColon (q :: ps))) := word_append hsp hhead
      have hlast : colonShown bColon (p :: q :: ps) = colonShown bColon (q :: ps) := by
        rw [colonShown, colonShown, getLast?_cons_cons]
      rw [showParams, hcons, hlast]
      cases p with
      | nil => exact absurd rfl hp0
      | cons a p =>
        have ha : a ≠ ch ':' := fun h0 => hcol (by rw [h0]; rfl)
        rw [cons_append] at hword ⊢
        rw [parseParams, if_neg ha, hword, ih hrest]

/-! ## `GetParamsColon` -/

theorem paramsFrom_eq (h : m.vsParams.length < 2 ^ 32) :
    ∀ (k : ℕ) (i : UInt32), i.toNat + k = m.vsParams.length →
      m.paramsFrom (UInt32.ofNat m.vsParams.length) (UInt32.ofNat m.vsParams.length) i =
        some (showParams m.bColon (m.vsParams.drop i.toNat)) := by
  have hend : (UInt32.ofNat m.vsParams.length).toNat = m.vsParams.length := by
    rw [UInt32.toNat_ofNat', Nat.mod_eq_of_lt h]
  intro k
  induction k with
  | zero =>
    intro i hi
    have hdone : ¬ i < UInt32.ofNat m.vsParams.length := by
      rw [UInt32.lt_iff_toNat_lt, hend]
      omega
    rw [paramsFrom, dif_neg hdone, drop_eq_nil_of_le (by omega)]
    rfl
  | succ k ih =>
    intro i hi
    have hlt : i.toNat < m.vsParams.length := by omega
    have hgo : i < UInt32.ofNat m.vsParams.length := by rw [UInt32.lt_iff_toNat_lt, hend]; exact hlt
    have hnext : (i + 1).toNat = i.toNat + 1 := by
      rw [UInt32.toNat_add, UInt32.toNat_one, Nat.mod_eq_of_lt (by omega)]
    -- `i == uParams - 1` asks for the last parameter
    have hlast : i = UInt32.ofNat m.vsParams.length - 1 ↔ k = 0 := by
      have hone : (1 : UInt32) ≤ UInt32.ofNat m.vsParams.length := by
        rw [UInt32.le_iff_toNat_le, hend, UInt32.toNat_one]
        omega
      rw [← UInt32.toNat_inj, UInt32.toNat_sub_of_le _ _ hone, hend, UInt32.toNat_one]
      omega
    have hdrop : m.vsParams.drop i.toNat = m.vsParams[i.toNat] :: m.vsParams.drop (i.toNat + 1) :=
      drop_eq_getElem_cons hlt
    have hrec := ih (i + 1) (by omega)
    rw [hnext] at hrec
    rw [paramsFrom, dif_pos hgo, getElem?_eq_getElem hlt, hdrop]
    simp only
    rw [hrec, Option.map_some, Bool.or_assoc, Bool.or_assoc, ← Bool.or_assoc (decide _) _ (CString.contains _ _),
      needsColon_eq]
    cases hrest : m.vsParams.drop (i.toNat + 1) with
    | nil =>
      have hk : k = 0 := by
        have := congrArg List.length hrest
        rw [length_drop, length_nil] at this
        omega
      rw [decide_eq_true (hlast.2 hk), Bool.true_and]
      rfl
    | cons q ps =>
      have hk : k ≠ 0 := by
        have := congrArg List.length hrest
        rw [length_drop, length_cons] at this
        omega
      rw [decide_eq_false (fun h0 => hk (hlast.1 h0)), Bool.false_and, if_neg Bool.false_ne_true]
      rfl

theorem getParamsColon_eq (h : m.vsParams.length < 2 ^ 32) :
    m.getParamsColon 0 0xFFFFFFFF = some ((lit " ").join (showParams m.bColon m.vsParams)) := by
  by_cases hne : m.vsParams = []
  · rw [getParamsColon, hne]
    rfl
  · have hpos : 0 < m.vsParams.length := length_pos_iff.2 hne
    have hsize : (UInt64.ofNat m.vsParams.length).toNat = m.vsParams.length := by
      rw [UInt64.toNat_ofNat', Nat.mod_eq_of_lt (by omega)]
    have hsmall : (UInt64.ofNat m.vsParams.length).toUInt32 = UInt32.ofNat m.vsParams.length := by
      rw [← UInt32.toNat_inj, UInt64.toNat_toUInt32, hsize, UInt32.toNat_ofNat']
    -- `uLen = -1` is cut down to the number of parameters, or is that number
    have hlen : (if (0xFFFFFFFF : UInt32).toUInt64 > UInt64.ofNat m.vsParams.length - (0 : UInt32).toUInt64 - 1 then
        (UInt64.ofNat m.vsParams.length - (0 : UInt32).toUInt64).toUInt32 else 0xFFFFFFFF) =
        UInt32.ofNat m.vsParams.length := by
      have hzero : (0 : UInt32).toUInt64 = 0 := rfl
      rw [hzero, UInt64.sub_zero, if_pos, hsmall]
      have hone : (1 : UInt64) ≤ UInt64.ofNat m.vsParams.length := by
        rw [UInt64.le_iff_toNat_le, hsize]
        exact hpos
      rw [gt_iff_lt, UInt64.lt_iff_toNat_lt, UInt64.toNat_sub_of_le _ _ hone, hsize]
      have hmax : ((0xFFFFFFFF : UInt32).toUInt64).toNat = 2 ^ 32 - 1 := rfl
      rw [hmax, UInt64.toNat_one]
      omega
    rw [getParamsColon, if_neg (by simp [hne])]
    simp only [hlen, UInt32.zero_add, hsmall]
    have hall := paramsFrom_eq m h m.vsParams.length 0 (by simp)
    rw [hall]
    rfl

/-! ## More parameters than the counter counts -/

/-- how much a list of words takes, each with a separator -/
def wordsLength (vs : VCString) : ℕ := (vs.map (fun v => v.length + 1)).sum

theorem wordsLength_cons (v : CString) (vs : VCString) : wordsLength (v :: vs) = v.length + 1 + wordsLength vs := by
  rw [wordsLength, map_cons, sum_cons]
  rfl

theorem length_join (v : CString) (vs : VCString) : ((lit " ").join (v :: vs)).length + 1 = wordsLength (v :: vs) := by
  rw [join_cons]
  induction vs generalizing v with
  | nil => simp [wordsLength]
  | cons w vs ih =>
    have := ih w
    rw [wordsLength_cons] at this ⊢
    rw [wordsLength_cons]
    simp only [flatMap_cons, length_append] at this ⊢
    have hone : (lit " ").length = 1 := rfl
    omega

theorem wordsLength_take (vsParams : VCString) (n : ℕ) (hn : n < vsParams.length) :
    wordsLength (vsParams.take n) + 2 ≤ wordsLength (showParams bColon vsParams) := by
  induction vsParams generalizing n with
  | nil => exact absurd hn (Nat.not_lt_zero n)
  | cons p ps ih =>
    cases ps with
    | nil =>
      obtain rfl : n = 0 := by simpa using hn
      rw [showParams, wordsLength_cons]
      split_ifs with hb
      · simp [wordsLength]
      · rw [Bool.not_eq_true, Bool.or_eq_false_iff] at hb
        have := length_pos_iff.2 (not_needsColon hb.2).1
        simp only [take_zero, wordsLength, map_nil, sum_nil]
        omega
    | cons q ps =>
      rw [showParams, wordsLength_cons]
      cases n with
      | zero =>
        have := ih 0 (by simp)
        simp only [take_zero] at this ⊢
        omega
      | succ n =>
        have := ih n (by simpa using hn)
        rw [take_succ_cons, wordsLength_cons]
        omega

theorem paramsFrom_le (uParams uEnd : UInt32) (h : uEnd.toNat ≤ m.vsParams.length) :
    ∀ (k : ℕ) (i : UInt32), i.toNat + k = uEnd.toNat → ∃ vs, m.paramsFrom uParams uEnd i = some vs ∧
      wordsLength vs ≤ wordsLength ((m.vsParams.take uEnd.toNat).drop i.toNat) +
        if i.toNat ≤ (uParams - 1).toNat then 1 else 0 := by
  intro k
  induction k with
  | zero =>
    intro i hi
    have hdone : ¬ i < uEnd := by rw [UInt32.lt_iff_toNat_lt]; omega
    rw [paramsFrom, dif_neg hdone]
    exact ⟨[], rfl, Nat.zero_le _⟩
  | succ k ih =>
    intro i hi
    have hgo : i < uEnd := by rw [UInt32.lt_iff_toNat_lt]; omega
    have hend := uEnd.toNat_lt
    have hnext : (i + 1).toNat = i.toNat + 1 := by
      rw [UInt32.toNat_add, UInt32.toNat_one, Nat.mod_eq_of_lt (by omega)]
    obtain ⟨vs, hvs, hle⟩ := ih (i + 1) (by omega)
    have hlt : i.toNat < (m.vsParams.take uEnd.toNat).length := by rw [length_take]; omega
    have hget : (m.vsParams.take uEnd.toNat)[i.toNat] = m.vsParams[i.toNat] := getElem_take
    rw [hnext] at hle
    rw [paramsFrom, dif_pos hgo, getElem?_eq_getElem (by omega), drop_eq_getElem_cons hlt, hget, hvs]
    refine ⟨_, rfl, ?_⟩
    rw [wordsLength_cons, wordsLength_cons]
    by_cases hi : i = uParams - 1
    · -- the one index that can get a colon; none comes after it
      rw [← hi] at hle ⊢
      rw [if_neg (by omega)] at hle
      rw [if_pos le_rfl]
      split_ifs
      · rw [length_cons]; omega
      · omega
    · have hne : i.toNat ≠ (uParams - 1).toNat := fun h0 => hi (UInt32.toNat_inj.1 h0)
      rw [decide_eq_false hi, Bool.false_and, if_neg Bool.false_ne_true]
      split_ifs at hle ⊢ <;> omega

/-- **From 2^32 parameters on** the 32-bit counters leave parameters out: less is printed than should be. -/
theorem length_getParamsColon_lt (h : 2 ^ 32 ≤ m.vsParams.length) :
    ∃ s, m.getParamsColon 0 0xFFFFFFFF = some s ∧
      s.length < ((lit " ").join (showParams m.bColon m.vsParams)).length := by
  have hne : m.vsParams ≠ [] := by
    intro h0
    rw [h0] at h
    exact absurd h (by decide)
  rw [getParamsColon, if_neg (by simp [hne])]
  simp only [UInt32.zero_add]
  set uEnd := if (0xFFFFFFFF : UInt32).toUInt64 > UInt64.ofNat m.vsParams.length - (0 : UInt32).toUInt64 - 1 then
        (UInt64.ofNat m.vsParams.length - (0 : UInt32).toUInt64).toUInt32 else 0xFFFFFFFF
  set uParams := (UInt64.ofNat m.vsParams.length).toUInt32
  have hend := uEnd.toNat_lt
  obtain ⟨vs, hvs, hle⟩ := paramsFrom_le m uParams uEnd (by omega) uEnd.toNat 0 (by simp)
  refine ⟨_, by rw [hvs]; rfl, ?_⟩
  have hfull := wordsLength_take m.bColon m.vsParams uEnd.toNat (by omega)
  have hprint : ((lit " ").join vs).length ≤ wordsLength vs - 1 := by
    cases vs with
    | nil => exact Nat.zero_le _
    | cons v vs => have := length_join v vs; omega
  have hshow : ((lit " ").join (showParams m.bColon m.vsParams)).length + 1 =
      wordsLength (showParams m.bColon m.vsParams) := by
    cases hs : showParams m.bColon m.vsParams with
    | nil => exact absurd hs (showParams_ne_nil _ hne)
    | cons v vs => exact length_join v vs
  rw [UInt32.toNat_zero, drop_zero] at hle
  split_ifs at hle <;> omega

/-! ## Lines -/

/-- an optional word with its mark in front and a space behind -/
def leadPart (c : UInt8) : Option CString → CString
  | none => []
  | some s => c :: (s ++ [ch ' '])

/-- an optional text behind a space -/
def lastPart : Option CString → CString
  | none => []
  | some s => ch ' ' :: s

/-- a line from its tags, prefix, command and parameters -/
def lineOf (oTags oPrefix : Option CString) (sCommand : CString) (oParams : Option CString) : CString :=
  leadPart (ch '@') oTags ++ (leadPart (ch ':') oPrefix ++ (sCommand ++ lastPart oParams))

def prefixPart (nick : CNick) : Option CString := if nick.getHostMask = [] then none else some nick.getHostMask

def paramsPart (bColon : Bool) (vsParams : VCString) : Option CString :=
  if vsParams = [] then none else some ((lit " ").join (showParams bColon vsParams))

/-- commands that begin a word of their own -/
structure GoodCommand (sCommand : CString) : Prop where
  ne : sCommand ≠ []
  noSpace : ch ' ' ∉ sCommand
  noAt : sCommand.head? ≠ some (ch '@')
  noColon : sCommand.head? ≠ some (ch ':')

/-- an optional text without spaces -/
def OneWord (o : Option CString) : Prop := ∀ s ∈ o, ch ' ' ∉ s

theorem appendPart_append (s t : CString) (h : s ≠ []) : appendPart s t = s ++ ch ' ' :: t := if_neg h

theorem toString_eq (hk : GoodKeys m.mssTags) (hv : SmallValues m.mssTags) (hc : m.sCommand ≠ []) :
    m.toString IncludeAll = (if m.vsParams = [] then some none else (m.getParamsColon 0 0xFFFFFFFF).map some).map
      (lineOf (tagsOf m.mssTags) (prefixPart m.nick) m.sCommand) := by
  have htags : (if IncludeAll &&& ExcludeTags = 0 && !m.mssTags.isEmpty then
      (tagsText m.mssTags).map (ch '@' :: ·) else some []) =
      some (match tagsOf m.mssTags with | none => [] | some s => ch '@' :: s) := by
    have hflag : IncludeAll &&& ExcludeTags = 0 := rfl
    rw [tagsText_eq m.mssTags hk hv, tagsOf]
    cases m.mssTags.isEmpty with
    | true => rfl
    | false => rfl
  have hflag : (IncludeAll &&& ExcludePrefix = 0) = True := by decide
  -- what stands in front of the parameters
  have hfront : ∀ oTags : Option CString,
      appendPart (if (IncludeAll &&& ExcludePrefix = 0) && m.nick.getHostMask ≠ [] then
          appendPart (match oTags with | none => [] | some s => ch '@' :: s) (ch ':' :: m.nick.getHostMask)
        else (match oTags with | none => [] | some s => ch '@' :: s)) m.sCommand =
      leadPart (ch '@') oTags ++ (leadPart (ch ':') (prefixPart m.nick) ++ m.sCommand) := by
    intro oTags
    simp only [hflag, decide_true, Bool.true_and, prefixPart]
    by_cases hmask : m.nick.getHostMask = []
    · cases oTags with
      | none => simp [hmask, leadPart, appendPart]
      | some s => simp [hmask, leadPart, appendPart]
    · cases oTags with
      | none => simp [hmask, leadPart, appendPart]
      | some s => simp [hmask, leadPart, appendPart]
  have hne : ∀ l : CString, l ++ m.sCommand ≠ [] := fun l h0 => hc (append_eq_nil_iff.1 h0).2
  unfold toString
  simp only
  rw [htags]
  simp only [hfront, if_pos hc]
  by_cases hp : m.vsParams = []
  · rw [if_neg (not_not.2 hp), if_pos hp]
    simp [lineOf, lastPart]
  · rw [if_pos hp, if_neg hp, Option.map_map]
    refine congrArg (fun f => Option.map f _) (funext fun s => ?_)
    rw [← append_assoc, appendPart_append _ _ (hne _)]
    simp [lineOf, lastPart]

theorem toString_none (hit : it ∈ m.mssTags.entries) (hv : 2 ^ 32 ≤ it.2.length) : m.toString IncludeAll = none := by
  have hempty : m.mssTags.isEmpty = false := by
    cases he : m.mssTags.entries with
    | nil => rw [he] at hit; exact nomatch hit
    | cons x l => rw [OrdMap.isEmpty, he]; rfl
  have hflag : (IncludeAll &&& ExcludeTags = 0) = True := by decide
  unfold toString
  rw [tagsText_none hit hv, hempty]
  simp only [hflag]
  rfl

theorem takePart_leadPart {c : UInt8} {o : Option CString} {rest : CString} (ho : OneWord o) (hc : c ≠ ch ' ')
    (hspace : rest.head? ≠ some (ch ' ')) (hmark : rest.head? ≠ some c) :
    takePart c (leadPart c o ++ rest) = (o, rest) := by
  cases o with
  | none => rw [leadPart, nil_append, takePart, if_neg hmark]
  | some s =>
    have hs : ch ' ' ∉ c :: s := by
      rw [mem_cons]
      rintro (h | h)
      · exact hc h.symm
      · exact ho s rfl h
    have hshape : leadPart c (some s) ++ rest = (c :: s) ++ ch ' ' :: rest := by simp [leadPart]
    have hword : nextWord ((c :: s) ++ ch ' ' :: rest) = (c :: s, rest) := word_append hs hspace
    rw [hshape, takePart, hword]
    exact if_pos rfl

theorem nextWord_lastPart {s : CString} {o : Option CString} (hs : ch ' ' ∉ s)
    (ho : ∀ t ∈ o, t.head? ≠ some (ch ' ')) : nextWord (s ++ lastPart o) = (s, o.getD []) := by
  cases o with
  | none => rw [lastPart, append_nil]; exact word_of_not_mem hs
  | some t => exact word_append hs (ho t rfl)

theorem head_of_goodCommand {s : CString} (h : GoodCommand s) (l : CString) :
    ∃ c, (s ++ l).head? = some c ∧ c ≠ ch ' ' ∧ c ≠ ch '@' ∧ c ≠ ch ':' := by
  cases s with
  | nil => exact absurd rfl h.ne
  | cons c s =>
    refine ⟨c, rfl, ?_, ?_, ?_⟩
    · intro h0
      exact h.noSpace (by rw [h0]; exact mem_cons_self)
    · intro h0
      exact h.noAt (by rw [h0]; rfl)
    · intro h0
      exact h.noColon (by rw [h0]; rfl)

/-- **The parts of a line.** -/
theorem parts_lineOf {oTags oPrefix oParams : Option CString} {sCommand : CString} (ht : OneWord oTags)
    (hp : OneWord oPrefix) (hc : GoodCommand sCommand) (ho : ∀ t ∈ oParams, t.head? ≠ some (ch ' ')) :
    (takePart (ch '@') (lineOf oTags oPrefix sCommand oParams)).1 = oTags ∧
      prefixOf (lineOf oTags oPrefix sCommand oParams) = oPrefix ∧
      commandPart (lineOf oTags oPrefix sCommand oParams) = (sCommand, oParams.getD []) := by
  obtain ⟨c, hhead, hsp, hat, hcol⟩ := head_of_goodCommand hc (lastPart oParams)
  have hcmd : ∀ x, x ≠ c → (sCommand ++ lastPart oParams).head? ≠ some x := by
    intro x hx h0
    rw [hhead, Option.some_inj] at h0
    exact hx h0.symm
  have h2 : takePart (ch ':') (leadPart (ch ':') oPrefix ++ (sCommand ++ lastPart oParams)) =
      (oPrefix, sCommand ++ lastPart oParams) :=
    takePart_leadPart hp (by decide) (hcmd _ hsp.symm) (hcmd _ hcol.symm)
  have h1 : takePart (ch '@') (lineOf oTags oPrefix sCommand oParams) =
      (oTags, leadPart (ch ':') oPrefix ++ (sCommand ++ lastPart oParams)) := by
    refine takePart_leadPart ht (by decide) ?_ ?_
    · cases oPrefix with
      | none => exact hcmd _ hsp.symm
      | some s => exact fun h0 => absurd (Option.some_inj.1 h0) (by decide)
    · cases oPrefix with
      | none => exact hcmd _ hat.symm
      | some s => exact fun h0 => absurd (Option.some_inj.1 h0) (by decide)
  refine ⟨by rw [h1], ?_, ?_⟩
  · rw [prefixOf, h1, h2]
  · rw [commandPart, h1, h2]
    exact nextWord_lastPart hc.noSpace ho

theorem parse_lineOf (oPrefix : Option CString) (sCommand : CString) (bColon : Bool) (vsParams : VCString)
    (hk : GoodKeys mssTags) (hp : OneWord oPrefix) (hc : GoodCommand sCommand) (hcan : Canonical vsParams) :
    m.parse (lineOf (tagsOf mssTags) oPrefix sCommand (paramsPart bColon vsParams)) =
      (parseTags (tagsOf mssTags)).map fun mssTags =>
        { nick := parsedNick m.nick oPrefix
          sCommand := sCommand
          vsParams := vsParams
          mssTags := mssTags
          time := m.time
          eType := typeOf sCommand (vsParams.getD 1 [])
          bColon := colonShown bColon vsParams } := by
  have ht : OneWord (tagsOf mssTags) := by
    intro s hs
    unfold tagsOf at hs
    split_ifs at hs with hempty
    · exact absurd hs (by simp)
    obtain rfl := Option.some_inj.1 hs
    refine not_mem_join (by decide) fun v hv => ?_
    obtain ⟨it, hit, rfl⟩ := mem_map.1 hv
    exact (showTag_clean (hk it hit)).1
  have hhead : ∀ t ∈ paramsPart bColon vsParams, t.head? ≠ some (ch ' ') := by
    intro t ht
    unfold paramsPart at ht
    split_ifs at ht with hne
    · exact absurd ht (by simp)
    obtain rfl := Option.some_inj.1 ht
    obtain ⟨c, l, hjoin, hcs⟩ := head_join_showParams bColon hne hcan
    rw [hjoin]
    simpa using hcs
  have hparams : parseParams ((paramsPart bColon vsParams).getD []) = (vsParams, colonShown bColon vsParams) := by
    unfold paramsPart
    split_ifs with hne
    · rw [hne]
      exact parseParams_showParams bColon [] (by simp [Canonical])
    · exact parseParams_showParams bColon vsParams hcan
  obtain ⟨htags, hpre, hcmd⟩ := parts_lineOf ht hp hc hhead
  rw [parse_eq, htags, hcmd, hparams, hpre]

end ZNC.CMessage
