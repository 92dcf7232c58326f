/-
What a configuration file can hold: keys, tags and names of a config that was read.

`Parse` trims them, and takes them from between separators, so whatever the text is, they come out as they would be read again.
That needs a text without CR and NUL, such as `Write` puts out.

Results:
- `trimmedLine_formed`: each line keeps keys, tags and names in order;
- `parse_formed`: so they are in order in the config that was read.
-/
import ZNC.ConfigReads

namespace ZNC.Config

open CString List

/-! ## Blocks and entries that are added -/

theorem mem_keys_pushBack (m : EntryMap) (sName sValue sName' : CString) :
    sName' ∈ (EntryMap.pushBack m sName sValue).keys ↔ sName' = sName ∨ sName' ∈ m.keys := by
  rw [← OrdMap.find_isSome_iff, ← OrdMap.find_isSome_iff, EntryMap.pushBack, OrdMap.find_insert]
  split <;> simp [*]

theorem mem_emplaceBack (subs : SubConfigs) (sTag sName : CString) (config : CConfig) :
    (∀ it, it ∈ (subs.emplaceBack sTag sName config).allEntries ↔ it ∈ config.allEntries ∨ it ∈ subs.allEntries) ∧
      ∀ block, block ∈ (subs.emplaceBack sTag sName config).allBlocks ↔
        (block = (sTag, sName) ∨ block ∈ config.subConfigs.allBlocks) ∨ block ∈ subs.allBlocks := by
  induction subs with
  | nil => simp [SubConfigs.emplaceBack, SubConfigs.allEntries, SubConfigs.allBlocks, CConfig.allEntries]
  | block t n entries subs rest _ ih =>
    rw [SubConfigs.emplaceBack]
    split
    · simp [SubConfigs.allEntries, SubConfigs.allBlocks, CConfig.allEntries, or_assoc]
    · simp only [SubConfigs.allEntries, SubConfigs.allBlocks, mem_append, ih, cons_append, mem_cons]
      exact ⟨fun it => or_left_comm, fun block => by tauto⟩

theorem formed_iff (c : CConfig) :
    Formed c ↔ (∀ sName ∈ c.configEntries.keys, KeyOk sName) ∧ (∀ it ∈ c.subConfigs.allEntries, KeyOk it.1) ∧
      ∀ block ∈ c.subConfigs.allBlocks, TagOk block.1 ∧ Tidy block.2 := by
  have hkeys : (∀ it ∈ c.allEntries, KeyOk it.1) ↔
      (∀ sName ∈ c.configEntries.keys, KeyOk sName) ∧ ∀ it ∈ c.subConfigs.allEntries, KeyOk it.1 := by
    rw [CConfig.allEntries, forall_mem_append, OrdMap.keys, forall_mem_map]
  rw [← and_assoc, ← hkeys]
  exact ⟨fun h => ⟨h.keys, h.tags⟩, fun h => ⟨h.1, h.2⟩⟩

theorem formed_pushBack (c : CConfig) (sName sValue : CString) :
    Formed { c with configEntries := EntryMap.pushBack c.configEntries sName sValue } ↔ KeyOk sName ∧ Formed c := by
  rw [formed_iff, formed_iff]
  simp only [mem_keys_pushBack, forall_eq_or_imp, and_assoc]

theorem formed_emplaceBack (c : CConfig) (sTag sName : CString) (config : CConfig) :
    Formed (c.emplaceBack sTag sName config) ↔ (TagOk sTag ∧ Tidy sName) ∧ Formed config ∧ Formed c := by
  obtain ⟨hentries, hblocks⟩ := mem_emplaceBack c.subConfigs sTag sName config
  have hall (it : CString × VCString) :
    it ∈ (c.emplaceBack sTag sName config).allEntries ↔ it ∈ config.allEntries ∨ it ∈ c.allEntries := by
    rw [CConfig.allEntries, mem_append, CConfig.allEntries.eq_1 c, mem_append]
    exact (or_congr_right (hentries it)).trans or_left_comm
  constructor
  · intro h
    refine ⟨h.tags (sTag, sName) ((hblocks _).2 (.inl (.inl rfl))), ⟨fun it hit => ?_, fun block hblock => ?_⟩,
      ⟨fun it hit => ?_, fun block hblock => ?_⟩⟩
    · exact h.keys it ((hall it).2 (.inl hit))
    · exact h.tags block ((hblocks block).2 (.inl (.inr hblock)))
    · exact h.keys it ((hall it).2 (.inr hit))
    · exact h.tags block ((hblocks block).2 (.inr hblock))
  · rintro ⟨hnew, hconfig, hc⟩
    refine ⟨fun it hit => ?_, fun block hblock => ?_⟩
    · rcases (hall it).1 hit with hit | hit
      · exact hconfig.keys it hit
      · exact hc.keys it hit
    · rcases (hblocks block).1 hblock with (rfl | hblock) | hblock
      · exact hnew
      · exact hconfig.tags block hblock
      · exact hc.tags block hblock

/-! ## Lower case -/

theorem tolower_mem {cs : CString} (hcs : ∀ c ∈ cs, isalpha c = false) (b : UInt8) : tolower b ∈ cs ↔ b ∈ cs := by
  constructor
  · intro h
    have hsame : b = tolower b := (tolower_eq_iff (hcs _ h)).1 rfl
    rwa [← hsame] at h
  · intro h
    rwa [(tolower_eq_iff (hcs b h)).2 rfl]

theorem tidy_asLower (s : CString) : Tidy s.asLower ↔ Tidy s := by
  have hblank (b : UInt8) : tolower b ∉ blanks ↔ b ∉ blanks := not_congr (tolower_mem (by decide +kernel) b)
  have hsingle (b : UInt8) : Single (tolower b) ↔ Single b := by
    have hmem : tolower b ∉ [0, ch '\r', ch '\n'] ↔ b ∉ [0, ch '\r', ch '\n'] :=
      not_congr (tolower_mem (by decide +kernel) b)
    simpa [Single] using hmem
  have hparts : (s.asLower ≠ [] ↔ s ≠ []) ∧ ((∀ c ∈ s.asLower, Single c) ↔ ∀ c ∈ s, Single c) ∧
      ((∀ c ∈ s.asLower.head?, c ∉ blanks) ↔ ∀ c ∈ s.head?, c ∉ blanks) ∧
        ((∀ c ∈ s.asLower.getLast?, c ∉ blanks) ↔ ∀ c ∈ s.getLast?, c ∉ blanks) := by
    simp [asLower, hsingle, hblank, head?_map, getLast?_map]
  constructor
  · intro h
    exact ⟨hparts.1.1 h.ne, hparts.2.1.1 h.single, hparts.2.2.1.1 h.first, hparts.2.2.2.1 h.last⟩
  · intro h
    exact ⟨hparts.1.2 h.ne, hparts.2.1.2 h.single, hparts.2.2.1.2 h.first, hparts.2.2.2.2 h.last⟩

theorem keyOk_asLower (s : CString) : KeyOk s.asLower ↔ KeyOk s := by
  have hequals : ch '=' ∈ s.asLower ↔ ch '=' ∈ s := mem_asLower (by decide)
  constructor
  · intro h
    exact ⟨(tidy_asLower s).1 h.toTidy, mt hequals.2 h.noEquals⟩
  · intro h
    exact ⟨(tidy_asLower s).2 h.toTidy, mt hequals.1 h.noEquals⟩

theorem tagOk_asLower (s : CString) : TagOk s.asLower ↔ TagOk s := by
  have hspace : 0x20 ∈ s.asLower ↔ 0x20 ∈ s := mem_asLower (by decide)
  have hslash : s.asLower.head? = some (ch '/') ↔ s.head? = some (ch '/') := by
    cases s with
    | nil => simp [asLower]
    | cons c s => simp [asLower, tolower_eq_iff (show isalpha (ch '/') = false by decide)]
  constructor
  · intro h
    exact ⟨(tidy_asLower s).1 h.toTidy, mt hspace.2 h.noSpace, mt hslash.2 h.noSlash⟩
  · intro h
    exact ⟨(tidy_asLower s).2 h.toTidy, mt hspace.1 h.noSpace, mt hslash.1 h.noSlash⟩

/-! ## Lines -/

theorem trimLeft_subset (s cs : CString) : s.trimLeft cs ⊆ s := (dropWhile_sublist _).subset

theorem trimRight_subset (s cs : CString) : s.trimRight_n cs ⊆ s := by
  intro c hc
  have hmem := (dropWhile_sublist _).subset (mem_reverse.1 hc)
  exact mem_reverse.1 hmem

theorem trim_subset (s : CString) : trim s ⊆ s := fun _ hc => trimLeft_subset s blanks (trimRight_subset _ blanks hc)

theorem trimPrefix_subset (s sPrefix : CString) : s.trimPrefix_n sPrefix ⊆ s := by
  rw [trimPrefix_n]
  split
  · exact drop_subset _ _
  · exact List.Subset.refl _

theorem token_subset (s : CString) (uPos : ℕ) (bRest : Bool) (cSep : UInt8) : s.token uPos bRest cSep false ⊆ s := by
  have hskip (uPos : ℕ) (p : CString) : skipTokens cSep false uPos p ⊆ p := by
    induction p generalizing uPos with
    | nil => cases uPos <;> exact List.Subset.refl _
    | cons c p ih =>
      cases uPos with
      | zero => exact List.Subset.refl _
      | succ uPos =>
        rw [skipTokens]
        split_ifs <;> exact fun b hb => mem_cons_of_mem _ (ih _ hb)
  have hstart : skipTokens cSep false uPos (s.dropWhile (· = cSep)) ⊆ s :=
    fun c hc => (dropWhile_sublist _).subset (hskip _ _ hc)
  cases bRest with
  | true => exact hstart
  | false => exact fun c hc => hstart ((takeWhile_sublist _).subset hc)

theorem tidy_trim {s : CString} (hs : ∀ c ∈ s, Single c) (hne : trim s ≠ []) : Tidy (trim s) := by
  refine ⟨hne, fun c hc => hs c (trim_subset s hc), fun c hc => ?_, fun c hc => ?_⟩
  · -- the first byte is the first one behind the blanks
    have hpre : trim s <+: s.trimLeft blanks := by
      have hcut := reverse_prefix.2
        (dropWhile_suffix (l := (s.trimLeft blanks).reverse) fun c => decide (c ∈ blanks))
      rwa [reverse_reverse] at hcut
    obtain ⟨rest, hrest⟩ := hpre
    have hhead : (s.trimLeft blanks).head? = some c := by
      rw [← hrest, head?_append_of_ne_nil _ hne]
      exact hc
    have hnot := head?_dropWhile_not (fun c => decide (c ∈ blanks)) s
    rw [CString.trimLeft] at hhead
    rw [hhead] at hnot
    simpa using hnot
  · have hnot := head?_dropWhile_not (fun c => decide (c ∈ blanks)) (s.trimLeft blanks).reverse
    rw [trim, trimRight_n, getLast?_reverse] at hc
    rw [hc] at hnot
    simpa using hnot

theorem trim_ne_nil {c : UInt8} (hc : c ∉ blanks) (s : CString) : trim (c :: s) ≠ [] := by
  have hleft : CString.trimLeft (c :: s) blanks = c :: s := dropWhile_cons_of_neg (by simpa using hc)
  intro hnil
  rw [trim, hleft, trimRight_n, reverse_eq_nil_iff, dropWhile_eq_nil_iff] at hnil
  exact hc (by simpa using hnil c (mem_reverse.2 mem_cons_self))

theorem single_line {sText sLine : CString} (htext : ∀ c ∈ sText, c ≠ 0 ∧ c ≠ ch '\r')
    (hline : sLine ∈ Lines.lines (ch '\n') sText) :
    ∀ c ∈ (sLine.trimLeft blanks).trimRight_n (lit "\r\n"), Single c := by
  obtain ⟨⟨w, hw, hform⟩, hsub⟩ := Lines.mem_lines hline
  have hcut : (sLine.trimLeft blanks).trimRight_n (lit "\r\n") ⊆ w := by
    rcases hform with rfl | rfl
    · have hleft : CString.trimLeft (w ++ [ch '\n']) blanks = [] ∨
        CString.trimLeft (w ++ [ch '\n']) blanks = CString.trimLeft w blanks ++ [ch '\n'] := by
        rw [CString.trimLeft, CString.trimLeft, dropWhile_append]
        split
        · exact .inl (by decide)
        · exact .inr rfl
      rcases hleft with hnil | hcut
      · rw [hnil]
        exact nil_subset _
      · have hlf : (CString.trimLeft w blanks ++ [ch '\n']).reverse =
          ch '\n' :: (CString.trimLeft w blanks).reverse := reverse_concat
        have hdrop : (ch '\n' :: (CString.trimLeft w blanks).reverse).dropWhile (fun c => c ∈ lit "\r\n") =
            (CString.trimLeft w blanks).reverse.dropWhile (fun c => c ∈ lit "\r\n") :=
              dropWhile_cons_of_pos (by decide)
        rw [hcut, trimRight_n, hlf, hdrop]
        exact fun c hc => trimLeft_subset w blanks (trimRight_subset _ _ hc)
    · exact fun c hc => trimLeft_subset _ _ (trimRight_subset _ _ hc)
  intro c hc
  have hmem := hsub (trimLeft_subset _ _ (trimRight_subset _ _ hc))
  exact ⟨(htext c hmem).1, (htext c hmem).2, fun h => hw (h ▸ hcut hc)⟩

/-- what is read has keys, tags and names in order -/
structure ParseState.Formed (st : ParseState) : Prop where
  this : Config.Formed st.this
  stack : ∀ entry ∈ st.configStack, (TagOk entry.sTag ∧ Tidy entry.sName) ∧ Config.Formed entry.config

variable {st : ParseState}

theorem ParseState.Formed.active (h : st.Formed) : Config.Formed st.activeConfig := by
  obtain ⟨uLineNum, this, configStack, bCommented⟩ := st
  cases configStack with
  | nil => exact h.this
  | cons entry configStack => exact (h.stack entry mem_cons_self).2

theorem ParseState.Formed.setActive (h : st.Formed) {c : CConfig} (hc : Config.Formed c) :
    (st.setActiveConfig c).Formed := by
  obtain ⟨uLineNum, this, configStack, bCommented⟩ := st
  cases configStack with
  | nil => exact ⟨hc, h.stack⟩
  | cons entry configStack =>
    refine ⟨h.this, fun e he => ?_⟩
    rcases mem_cons.1 he with rfl | he
    · exact ⟨(h.stack entry mem_cons_self).1, hc⟩
    · exact h.stack e (mem_cons_of_mem _ he)

variable {st' : ParseState}

theorem regularLine_formed (h : st.Formed) {sLine : CString} (hline : ∀ c ∈ sLine, Single c)
    (hst' : st.regularLine sLine = .ok st') : st'.Formed := by
  rw [ParseState.regularLine] at hst'
  dsimp only at hst'
  split at hst'
  · cases hst'
  · rename_i hsome
    obtain ⟨hne, -⟩ := not_or.1 hsome
    rw [← Except.ok.inj hst']
    refine h.setActive ((formed_pushBack _ _ _).2 ⟨(keyOk_asLower _).2 ⟨tidy_trim (fun c hc =>
      hline c (token_subset _ _ _ _ hc)) hne, ?_⟩, h.active⟩)
    intro hmem
    have htoken := trim_subset _ hmem
    simpa using mem_takeWhile_imp htoken

theorem closeTag_formed (h : st.Formed) {sTag sValue : CString} (htag : ∀ c ∈ sTag, Single c)
    (hst' : st.closeTag sTag sValue = .ok st') : st'.Formed := by
  obtain ⟨uLineNum, this, configStack, bCommented⟩ := st
  rw [ParseState.closeTag] at hst'
  split at hst'
  · cases hst'
  · cases configStack with
    | nil => cases hst'
    | cons entry configStack =>
      obtain ⟨⟨hopened, hname⟩, hconfig⟩ := h.stack entry mem_cons_self
      have hrest : ParseState.Formed ⟨uLineNum, this, configStack, bCommented⟩ :=
        ⟨h.this, fun e he => h.stack e (mem_cons_of_mem _ he)⟩
      dsimp only at hst'
      split at hst'
      · cases hst'
      · rename_i hequal
        split at hst'
        · cases hst'
        · -- the tags are the same but for case
          have hsame : sTag.asLower = entry.sTag.asLower := by
            have h0 : (0 : UInt8) ∉ sTag := fun hmem => (htag 0 hmem).1 rfl
            have h0' : (0 : UInt8) ∉ entry.sTag := fun hmem => (hopened.single 0 hmem).1 rfl
            simpa [equals, cStr_eq_self h0, cStr_eq_self h0'] using hequal
          have hlower : TagOk sTag.asLower := by
            rw [hsame]
            exact (tagOk_asLower _).2 hopened
          rw [← Except.ok.inj hst']
          exact hrest.setActive ((formed_emplaceBack _ _ _ _).2 ⟨⟨hlower, hname⟩, hconfig, hrest.active⟩)

theorem openTag_formed (h : st.Formed) {sTag sValue : CString} (htag : sValue ≠ [] → TagOk sTag ∧ Tidy sValue)
    (hst' : st.openTag sTag sValue = .ok st') : st'.Formed := by
  rw [ParseState.openTag] at hst'
  split at hst'
  · cases hst'
  · rename_i hne
    obtain ⟨htag, hname⟩ := htag hne
    rw [← Except.ok.inj hst']
    refine ⟨h.this, fun entry hentry => ?_⟩
    rcases mem_cons.1 hentry with rfl | hentry
    · exact ⟨⟨(tagOk_asLower sTag).2 htag, hname⟩,
        ⟨fun it hit => absurd hit not_mem_nil, fun block hblock => absurd hblock not_mem_nil⟩⟩
    · exact h.stack entry hentry

theorem tagLine_formed (h : st.Formed) {sLine : CString} (hline : ∀ c ∈ sLine, Single c)
    (hst' : st.tagLine sLine = .ok st') : st'.Formed := by
  have hinner : ∀ c ∈ trim (sLine.drop 1).dropLast, Single c := by
    intro c hc
    exact hline c (mem_of_mem_drop (mem_of_mem_dropLast (trim_subset _ hc)))
  have htidy := tidy_trim (s := (sLine.drop 1).dropLast) fun c hc =>
    hline c (mem_of_mem_drop (mem_of_mem_dropLast hc))
  simp only [ParseState.tagLine] at hst'
  generalize trim (sLine.drop 1).dropLast = s at hinner htidy hst'
  have htoken : ∀ c ∈ s.token 0 false 0x20 false, Single c := fun c hc => hinner c (token_subset _ _ _ _ hc)
  split at hst'
  · refine closeTag_formed h (fun c hc => ?_) hst'
    exact htoken c (trim_subset _ (trimPrefix_subset _ _ hc))
  · rename_i hslash
    refine openTag_formed h (fun hname =>
      ⟨⟨tidy_trim htoken ?_, ?_, ?_⟩, tidy_trim (fun c hc => hinner c (token_subset _ _ _ _ hc)) hname⟩) hst'
    · -- the first byte is that of the line
      have hsome : s ≠ [] := fun hnil => hname (by rw [hnil]; rfl)
      obtain ⟨c, t, rfl⟩ := exists_cons_of_ne_nil hsome
      have hfirst : c ∉ blanks := (htidy hsome).first c rfl
      have hspace : c ≠ 0x20 := by
        rintro rfl
        exact hfirst (by decide)
      have hstart : CString.token (c :: t) 0 false 0x20 false = c :: t.takeWhile (· ≠ 0x20) := by
        have hdrop : (c :: t).dropWhile (· = 0x20) = c :: t := dropWhile_cons_of_neg (by simpa using hspace)
        rw [token, if_neg Bool.false_ne_true, hdrop]
        exact takeWhile_cons_of_pos (by simpa using hspace)
      rw [hstart]
      exact trim_ne_nil hfirst _
    · intro hmem
      simpa using mem_takeWhile_imp (trim_subset _ hmem)
    · exact mt (startsWith_byte (by decide) (by decide)).2 hslash

theorem trimmedLine_formed (h : st.Formed) {sLine : CString} (hline : ∀ c ∈ sLine, Single c)
    (hst' : st.trimmedLine sLine = .ok st') : st'.Formed := by
  rw [ParseState.trimmedLine] at hst'
  split at hst'
  · rw [← Except.ok.inj hst']
    exact ⟨h.this, h.stack⟩
  · split at hst'
    · rw [← Except.ok.inj hst']
      exact h
    · split at hst'
      · exact tagLine_formed h hline hst'
      · exact regularLine_formed h hline hst'

theorem parseLines_formed {sText : CString} (htext : ∀ c ∈ sText, c ≠ 0 ∧ c ≠ ch '\r') {st : ParseState} (h : st.Formed)
    (hst' : st.parseLines sText = .ok st') : st'.Formed := by
  have hrun (vsLines : List CString) (hlines : ∀ sLine ∈ vsLines, sLine ∈ Lines.lines (ch '\n') sText)
    (st : ParseState) (h : st.Formed)
    (hst' : vsLines.foldlM ParseState.parseLine st = .ok st') : st'.Formed := by
    induction vsLines generalizing st with
    | nil =>
      rw [← Except.ok.inj hst']
      exact h
    | cons sLine vsLines ih =>
      rw [foldlM_cons] at hst'
      cases hstep : st.parseLine sLine with
      | error sErrorMsg =>
        rw [hstep] at hst'
        cases hst'
      | ok st₁ =>
        rw [hstep] at hst'
        have hformed : ParseState.Formed { st with uLineNum := st.uLineNum + 1 } := ⟨h.this, h.stack⟩
        have hst₁ := trimmedLine_formed hformed (single_line htext (hlines sLine mem_cons_self)) hstep
        exact ih (fun l hl => hlines l (mem_cons_of_mem _ hl)) st₁ hst₁ hst'
  exact hrun _ (fun _ hl => hl) st h hst'

theorem formed_empty : Config.Formed .empty :=
  ⟨fun _ hit => absurd hit not_mem_nil, fun _ hblock => absurd hblock not_mem_nil⟩

/-- **What is read** from a text without CR and NUL has keys, tags and names in order. -/
theorem parse_formed {sText : CString} (htext : ∀ c ∈ sText, c ≠ 0 ∧ c ≠ ch '\r') {c : CConfig}
    (h : parse sText = .ok c) :
    Config.Formed c := by
  rw [parse] at h
  cases hlines : (⟨0, .empty, [], false⟩ : ParseState).parseLines sText with
  | error sErrorMsg =>
    rw [hlines] at h
    cases h
  | ok st =>
    rw [hlines] at h
    have hst := parseLines_formed htext ⟨formed_empty, fun _ hentry => absurd hentry not_mem_nil⟩ hlines
    dsimp only [ParseState.finish] at h
    split at h
    · cases h
    · split at h
      · rw [← Except.ok.inj h]
        exact hst.this
      · cases h

end ZNC.Config
