/-
The text of a configuration, read again: what `Parse` makes of the lines that `Write` puts out.

A text is a change of the config that is being read, which may fail; texts one after the other are changes one after the other,
and the lines around a block add to the config outside what is read from an empty config inside.

Results:
- `Reads.append`, `reads_entry`, `reads_block`: texts as changes;
- `reads_write`, `parse_write`: the text of a whole config.
-/
import ZNC.Config

namespace ZNC.Config

open CString List Option

/-! ## Entries and blocks -/

/-- `m_ConfigEntries` with these entries too, their keys in lower case and their values changed -/
def addEntries (f : CString → CString) (c : CConfig) (entries : List (CString × VCString)) : CConfig :=
  { c with
    configEntries := entries.foldl
      (fun m it => it.2.foldl (fun m sValue => EntryMap.pushBack m it.1.asLower (f sValue)) m)
      c.configEntries }

/-- the same for blocks, with their tags in lower case -/
def SubConfigs.addTo (f : CString → CString) (c : CConfig) : SubConfigs → CConfig
  | .nil => c
  | .block sTag sName entries subs rest =>
    rest.addTo f (c.emplaceBack sTag.asLower sName (subs.addTo f (addEntries f .empty entries.entries)))

/-- the config with keys and tags in lower case and changed values -/
def CConfig.lowered (f : CString → CString) (c : CConfig) : CConfig :=
  c.subConfigs.addTo f (addEntries f .empty c.configEntries.entries)

/-- the entries anywhere in the blocks -/
def SubConfigs.allEntries : SubConfigs → List (CString × VCString)
  | .nil => []
  | .block _ _ entries subs rest => entries.entries ++ subs.allEntries ++ rest.allEntries

/-- the tags and names anywhere in the blocks -/
def SubConfigs.allBlocks : SubConfigs → List (CString × CString)
  | .nil => []
  | .block sTag sName _ subs rest => (sTag, sName) :: subs.allBlocks ++ rest.allBlocks

def CConfig.allEntries (c : CConfig) : List (CString × VCString) := c.configEntries.entries ++ c.subConfigs.allEntries

/-- the tags in lower case and the names of the outermost blocks -/
def SubConfigs.labels : SubConfigs → List (CString × CString)
  | .nil => []
  | .block sTag sName _ _ rest => (sTag.asLower, sName) :: rest.labels

/-- no two blocks of one config have the same name and, ignoring case, the same tag -/
def SubConfigs.Distinct : SubConfigs → Prop
  | .nil => True
  | .block sTag sName _ subs rest => (sTag.asLower, sName) ∉ rest.labels ∧ subs.Distinct ∧ rest.Distinct

/-- keys, tags and names are read as they are written -/
structure Formed (c : CConfig) : Prop where
  keys : ∀ it ∈ c.allEntries, KeyOk it.1
  tags : ∀ block ∈ c.subConfigs.allBlocks, TagOk block.1 ∧ Tidy block.2

/-- no key begins like a comment or a tag -/
def Unmarked (c : CConfig) : Prop := ∀ it ∈ c.allEntries, ∀ b ∈ it.1.head?, b ∉ marks

instance SubConfigs.Distinct.decidable : (subs : SubConfigs) → Decidable subs.Distinct
  | .nil => isTrue trivial
  | .block sTag sName _ subs rest =>
    have := SubConfigs.Distinct.decidable subs
    have := SubConfigs.Distinct.decidable rest
    inferInstanceAs (Decidable ((sTag.asLower, sName) ∉ rest.labels ∧ subs.Distinct ∧ rest.Distinct))

instance Unmarked.decidable (c : CConfig) : Decidable (Unmarked c) :=
  inferInstanceAs (Decidable (∀ it ∈ c.allEntries, ∀ b ∈ it.1.head?, b ∉ marks))

/-! ## Reading -/

/-- what comes of a text: the active config afterwards, or an error -/
def Becomes (st : ParseState) (sText : CString) : Option CConfig → Prop
  | some c => ∃ uLineNum, ∀ sRest, st.parseLines (sText ++ sRest) = (st.atLine uLineNum c).parseLines sRest
  | none => ∃ sErrorMsg, ∀ sRest, st.parseLines (sText ++ sRest) = .error sErrorMsg

/-- what a text does to the config that is being read -/
def Reads (sText : CString) (f : CConfig → Option CConfig) : Prop :=
  ∀ st : ParseState, st.bCommented = false → Becomes st sText (f st.activeConfig)

theorem Becomes.append {st : ParseState} {sText sText' : CString} {o : Option CConfig} {g : CConfig → Option CConfig}
    (h : Becomes st sText o) (h' : ∀ u c, o = some c → Becomes (st.atLine u c) sText' (g c)) :
    Becomes st (sText ++ sText') (o.bind g) := by
  cases o with
  | none =>
    obtain ⟨sErrorMsg, h⟩ := h
    refine ⟨sErrorMsg, fun sRest => ?_⟩
    rw [append_assoc, h]
  | some c =>
    obtain ⟨u, h⟩ := h
    have hsecond := h' u c rfl
    rw [bind_some]
    cases hg : g c with
    | none =>
      rw [hg] at hsecond
      obtain ⟨sErrorMsg, hsecond⟩ := hsecond
      refine ⟨sErrorMsg, fun sRest => ?_⟩
      rw [append_assoc, h, hsecond]
    | some d =>
      rw [hg] at hsecond
      obtain ⟨v, hsecond⟩ := hsecond
      refine ⟨v, fun sRest => ?_⟩
      rw [append_assoc, h, hsecond, ParseState.at_at]

theorem Reads.nil : Reads [] some := by
  intro st _
  refine ⟨st.uLineNum, fun sRest => ?_⟩
  rw [ParseState.at_self, nil_append]

theorem Reads.append {sText sText' : CString} {f g : CConfig → Option CConfig} (h : Reads sText f)
    (h' : Reads sText' g) :
    Reads (sText ++ sText') fun c => (f c).bind g := by
  intro st hst
  refine (h st hst).append fun u c _ => ?_
  have hsecond := h' (st.atLine u c) (by rw [ParseState.bCommented_at, hst])
  rwa [ParseState.activeConfig_at] at hsecond

theorem reads_newline : Reads (lit "\n") some := by
  intro st hst
  refine ⟨st.uLineNum + 1, fun sRest => ?_⟩
  have hskip : st.parseLine ([] ++ lit "\n") = .ok { st with uLineNum := st.uLineNum + 1 } := by
    have hempty : (CString.trimLeft ([] ++ lit "\n") blanks).trimRight_n (lit "\r\n") = [] := by decide
    rw [ParseState.parseLine, hempty, ParseState.trimmedLine]
    rw [hst]
    rfl
  have hnone : ∀ c ∈ ([] : CString), Single c := fun c hc => absurd hc not_mem_nil
  have hline := st.parseLines_append hnone sRest
  rw [hskip] at hline
  rw [ParseState.at_self]
  exact hline

theorem parseLines_line (st : ParseState) (iIndentation : ℕ) {sLine : CString} (hsome : sLine ≠ [])
    (hsingle : ∀ c ∈ sLine, Single c)
    (hfirst : ∀ c ∈ sLine.head?, c ∉ blanks) (sRest : CString) :
    st.parseLines (indentation iIndentation ++ sLine ++ lit "\n" ++ sRest) =
      ({ st with uLineNum := st.uLineNum + 1 }.trimmedLine sLine).bind fun st' => st'.parseLines sRest := by
  have hall : ∀ c ∈ indentation iIndentation ++ sLine, Single c := by
    intro c hc
    rcases mem_append.1 hc with hc | hc
    · rw [eq_of_mem_replicate hc]
      decide
    · exact hsingle c hc
  rw [st.parseLines_append hall, st.parseLine_indented iIndentation hsome hsingle hfirst]

theorem reads_entry (iIndentation : ℕ) {sName : CString} (hkey : KeyOk sName) (hmark : ∀ b ∈ sName.head?, b ∉ marks)
    (sValue : CString) :
    Reads (entryLine iIndentation sName sValue ++ lit "\n") fun c =>
      if singleLine sValue = [] then none
      else some { c with configEntries := EntryMap.pushBack c.configEntries sName.asLower (singleLine sValue) } := by
  have htext : entryLine iIndentation sName sValue =
    indentation iIndentation ++ (sName ++ lit " = " ++ singleLine sValue) := by
    have hbefore : ∀ c ∈ indentation iIndentation ++ sName ++ lit " = ", Single c := by
      intro c hc
      simp only [mem_append] at hc
      rcases hc with (hc | hc) | hc
      · rw [eq_of_mem_replicate hc]
        decide
      · exact hkey.single c hc
      · revert c
        decide +kernel
    rw [entryLine, singleLine_append hbefore]
    simp only [append_assoc]
  have hsingle : ∀ c ∈ sName ++ lit " = " ++ singleLine sValue, Single c := by
    intro c hc
    simp only [mem_append] at hc
    rcases hc with (hc | hc) | hc
    · exact hkey.single c hc
    · revert c
      decide +kernel
    · exact single_singleLine hc
  have hfirst : ∀ c ∈ (sName ++ lit " = " ++ singleLine sValue).head?, c ∉ blanks := by
    rw [append_assoc, head?_append_of_ne_nil _ hkey.ne]
    exact hkey.first
  have hsome : sName ++ lit " = " ++ singleLine sValue ≠ [] := by simp [hkey.ne]
  intro st hst
  have hline := fun sRest => parseLines_line st iIndentation hsome hsingle hfirst sRest
  rw [htext]
  simp only [ParseState.trimmedLine_entry { st with uLineNum := st.uLineNum + 1 } hst hkey hmark] at hline
  by_cases hnil : singleLine sValue = []
  · simp only [if_pos hnil] at hline ⊢
    exact ⟨_, hline⟩
  · simp only [if_neg hnil] at hline ⊢
    exact ⟨_, hline⟩

theorem equals_asLower {s : CString} (hs : ∀ c ∈ s, Single c) : s.equals s.asLower = true := by
  have h0 : (0 : UInt8) ∉ s := fun h => (hs 0 h).1 rfl
  have hlower0 : (0 : UInt8) ∉ s.asLower := mt (mem_asLower (by decide)).1 h0
  rw [equals, cStr_eq_self h0, cStr_eq_self hlower0, asLower_asLower, decide_eq_true rfl]

theorem reads_block (iIndentation : ℕ) {sTag sName : CString} (htag : TagOk sTag) (hname : Tidy sName) {sBody : CString}
    {f : CConfig → Option CConfig} (hbody : Reads sBody f) :
    Reads (openLine iIndentation sTag sName ++ lit "\n" ++ sBody ++ (closeLine iIndentation sTag ++ lit "\n")) fun c =>
      (f .empty).bind fun config =>
        if c.subConfigs.has sTag.asLower sName then none else some (c.emplaceBack sTag.asLower sName config) := by
  have htabs : ∀ c ∈ indentation iIndentation, Single c := by
    intro c hc
    rw [eq_of_mem_replicate hc]
    decide
  have hopenSingle : ∀ c ∈ lit "<" ++ (sTag ++ lit " " ++ sName) ++ lit ">", Single c := by
    simp only [forall_mem_append]
    exact ⟨⟨by decide +kernel, ⟨htag.single, by decide +kernel⟩, hname.single⟩, by decide +kernel⟩
  have hcloseSingle : ∀ c ∈ lit "<" ++ (lit "/" ++ sTag) ++ lit ">", Single c := by
    simp only [forall_mem_append]
    exact ⟨⟨by decide +kernel, by decide +kernel, htag.single⟩, by decide +kernel⟩
  have hopen : openLine iIndentation sTag sName =
    indentation iIndentation ++ (lit "<" ++ (sTag ++ lit " " ++ sName) ++ lit ">") := by
    have hall : ∀ c ∈ indentation iIndentation ++ (lit "<" ++ (sTag ++ lit " " ++ sName) ++ lit ">"), Single c :=
      forall_mem_append.2 ⟨htabs, hopenSingle⟩
    rw [← singleLine_eq_self hall, openLine]
    simp only [append_assoc]
  have hclose : closeLine iIndentation sTag =
    indentation iIndentation ++ (lit "<" ++ (lit "/" ++ sTag) ++ lit ">") := by
    have hall : ∀ c ∈ indentation iIndentation ++ (lit "<" ++ (lit "/" ++ sTag) ++ lit ">"), Single c :=
      forall_mem_append.2 ⟨htabs, hcloseSingle⟩
    rw [← singleLine_eq_self hall, closeLine]
    simp only [append_assoc]
    rfl
  have hbracket (s : CString) : (∀ c ∈ (lit "<" ++ s ++ lit ">").head?, c ∉ blanks) ∧ lit "<" ++ s ++ lit ">" ≠ [] := by
    refine ⟨fun c hc => ?_, fun h => ?_⟩
    · rw [← some.inj hc]
      decide
    · cases h
  intro st hst
  have hopened := fun sRest => parseLines_line st iIndentation (hbracket _).2 hopenSingle (hbracket _).1 sRest
  simp only [ParseState.trimmedLine_open { st with uLineNum := st.uLineNum + 1 } hst htag hname] at hopened
  have htext (sRest : CString) :
      openLine iIndentation sTag sName ++ lit "\n" ++ sBody ++ (closeLine iIndentation sTag ++ lit "\n") ++ sRest =
        openLine iIndentation sTag sName ++ lit "\n" ++
          (sBody ++ (closeLine iIndentation sTag ++ lit "\n" ++ sRest)) := by
    simp only [append_assoc]
  have hbody := hbody { st with uLineNum := st.uLineNum + 1,
                                configStack := ⟨sTag.asLower, sName, .empty⟩ :: st.configStack } hst
  change Becomes _ _ (f .empty) at hbody
  change Becomes _ _ ((f .empty).bind _)
  cases hf : f .empty with
  | none =>
    rw [hf] at hbody
    obtain ⟨sErrorMsg, hbody⟩ := hbody
    refine ⟨sErrorMsg, fun sRest => ?_⟩
    rw [htext, hopen, hopened]
    exact hbody _
  | some config =>
    rw [hf] at hbody
    obtain ⟨u, hbody⟩ := hbody
    -- the innermost open block is this one
    let st' : ParseState := { st with uLineNum := u + 1,
                                      configStack := ⟨sTag.asLower, sName, config⟩ :: st.configStack }
    have hclosed (sRest : CString) :
        st.parseLines (openLine iIndentation sTag sName ++ lit "\n" ++ sBody ++
          (closeLine iIndentation sTag ++ lit "\n") ++ sRest) =
          (st'.closeTag sTag []).bind fun st'' => st''.parseLines sRest := by
      rw [htext, hopen, hopened, hclose]
      refine (hbody _).trans ?_
      rw [← ParseState.trimmedLine_close st' hst htag]
      exact parseLines_line _ iIndentation (hbracket _).2 hcloseSingle (hbracket _).1 sRest
    have htagEq : ¬(!sTag.equals sTag.asLower) = true := by
      rw [equals_asLower htag.single]
      exact Bool.false_ne_true
    have hclosing : st'.closeTag sTag [] =
        if st.activeConfig.subConfigs.has sTag.asLower sName then
          st'.error (lit "Duplicate entry for tag \"" ++ sTag ++ lit "\" name \"" ++ sName ++ lit "\".")
        else .ok (st.atLine (u + 1) (st.activeConfig.emplaceBack sTag.asLower sName config)) := by
      rw [ParseState.closeTag, if_neg (not_not.2 rfl)]
      exact if_neg htagEq
    rw [bind_some]
    by_cases hhas : st.activeConfig.subConfigs.has sTag.asLower sName = true
    · rw [if_pos hhas] at hclosing ⊢
      obtain ⟨sErrorMsg, herror⟩ : ∃ sErrorMsg, st'.closeTag sTag [] = .error sErrorMsg := ⟨_, hclosing⟩
      refine ⟨sErrorMsg, fun sRest => ?_⟩
      rw [hclosed, herror]
      rfl
    · rw [if_neg hhas] at hclosing ⊢
      refine ⟨u + 1, fun sRest => ?_⟩
      rw [hclosed, hclosing]
      rfl

/-! ## The text of a config -/

/-- the entries that are read, if something is left of each value -/
def readEntries (c : CConfig) (entries : List (CString × VCString)) : Option CConfig :=
  if ∀ it ∈ entries, ∀ sValue ∈ it.2, singleLine sValue ≠ [] then some (addEntries singleLine c entries) else none

/-- the blocks that are read, if no tag and name comes twice -/
def SubConfigs.read (c : CConfig) : SubConfigs → Option CConfig
  | .nil => some c
  | .block sTag sName entries subs rest =>
    ((readEntries .empty entries.entries).bind fun config => subs.read config).bind fun config =>
      if c.subConfigs.has sTag.asLower sName then none else rest.read (c.emplaceBack sTag.asLower sName config)

theorem reads_values (iIndentation : ℕ) {sName : CString} (hkey : KeyOk sName) (hmark : ∀ b ∈ sName.head?, b ∉ marks)
    (vsValues : VCString) :
    Reads (vsValues.flatMap fun sValue => entryLine iIndentation sName sValue ++ lit "\n") fun c =>
      readEntries c [(sName, vsValues)] := by
  induction vsValues with
  | nil =>
    have hsame (c : CConfig) : readEntries c [(sName, [])] = some c := by simp [readEntries, addEntries]
    simp only [hsame]
    exact Reads.nil
  | cons sValue vsValues ih =>
    rw [flatMap_cons]
    have hboth := (reads_entry iIndentation hkey hmark sValue).append ih
    have hsame (c : CConfig) : readEntries c [(sName, sValue :: vsValues)] =
        (if singleLine sValue = [] then none
        else some { c with configEntries := EntryMap.pushBack c.configEntries sName.asLower (singleLine sValue) }).bind
          fun c => readEntries c [(sName, vsValues)] := by
      by_cases hnil : singleLine sValue = []
      · simp [readEntries, hnil]
      · simp [readEntries, hnil, addEntries]
    simp only [hsame]
    exact hboth

theorem reads_entries (iIndentation : ℕ) (entries : List (CString × VCString)) (hkeys : ∀ it ∈ entries, KeyOk it.1)
    (hmarks : ∀ it ∈ entries, ∀ b ∈ it.1.head?, b ∉ marks) :
    Reads (writeEntries iIndentation entries) fun c => readEntries c entries := by
  induction entries with
  | nil =>
    have hsame (c : CConfig) : readEntries c [] = some c := by simp [readEntries, addEntries]
    simp only [hsame]
    exact Reads.nil
  | cons it entries ih =>
    obtain ⟨hkey, hkeys⟩ := forall_mem_cons.1 hkeys
    obtain ⟨hmark, hmarks⟩ := forall_mem_cons.1 hmarks
    have hboth := (reads_values iIndentation hkey hmark it.2).append (ih hkeys hmarks)
    have hsame (c : CConfig) : readEntries c (it :: entries) =
        (readEntries c [(it.1, it.2)]).bind fun c => readEntries c entries := by
      by_cases hvalues : ∀ sValue ∈ it.2, singleLine sValue ≠ []
      · have hfirst : readEntries c [(it.1, it.2)] = some (addEntries singleLine c [it]) :=
          if_pos (by simpa using hvalues)
        have hall : (∀ it' ∈ it :: entries, ∀ sValue ∈ it'.2, singleLine sValue ≠ []) ↔
            ∀ it' ∈ entries, ∀ sValue ∈ it'.2, singleLine sValue ≠ [] := by
          rw [forall_mem_cons]
          exact and_iff_right hvalues
        rw [hfirst, bind_some, readEntries, readEntries]
        simp only [hall]
        rfl
      · have hfirst : readEntries c [(it.1, it.2)] = none := if_neg (by simpa using hvalues)
        rw [hfirst, bind_none, readEntries, if_neg fun h => hvalues (h it mem_cons_self)]
    simp only [hsame]
    exact hboth

theorem reads_subs (iIndentation : ℕ) (subs : SubConfigs) (hkeys : ∀ it ∈ subs.allEntries, KeyOk it.1)
    (hmarks : ∀ it ∈ subs.allEntries, ∀ b ∈ it.1.head?, b ∉ marks)
    (htags : ∀ block ∈ subs.allBlocks, TagOk block.1 ∧ Tidy block.2) :
    Reads (subs.write iIndentation) fun c => subs.read c := by
  induction subs generalizing iIndentation with
  | nil => exact Reads.nil
  | block sTag sName entries subs rest ihsubs ihrest =>
    simp only [SubConfigs.allEntries, forall_mem_append] at hkeys hmarks
    simp only [SubConfigs.allBlocks, cons_append, forall_mem_cons, forall_mem_append] at htags
    obtain ⟨⟨htag, hname⟩, htagsSubs, htagsRest⟩ := htags
    have hbody := (reads_entries (iIndentation + 1) entries.entries hkeys.1.1 hmarks.1.1).append
      (ihsubs (iIndentation + 1) hkeys.1.2 hmarks.1.2 htagsSubs)
    have hblock := reads_newline.append (reads_block iIndentation htag hname hbody)
    have hall := hblock.append (ihrest iIndentation hkeys.2 hmarks.2 htagsRest)
    have htext : (SubConfigs.block sTag sName entries subs rest).write iIndentation =
        lit "\n" ++ (openLine iIndentation sTag sName ++ lit "\n" ++ (writeEntries (iIndentation + 1) entries.entries ++
          subs.write (iIndentation + 1)) ++ (closeLine iIndentation sTag ++ lit "\n")) ++ rest.write iIndentation := by
      simp only [SubConfigs.write, append_assoc]
    have hsame (c : CConfig) : (SubConfigs.block sTag sName entries subs rest).read c =
        ((some c).bind fun c =>
          ((readEntries .empty entries.entries).bind fun config => subs.read config).bind fun config =>
          if c.subConfigs.has sTag.asLower sName then none else some (c.emplaceBack sTag.asLower sName config)).bind
            fun c => rest.read c := by
      rw [SubConfigs.read, bind_some]
      cases (readEntries .empty entries.entries).bind fun config => subs.read config with
      | none => rfl
      | some config =>
        simp only [bind_some]
        split <;> rfl
    rw [htext]
    simp only [hsame]
    exact hall

theorem reads_write {c : CConfig} (h : Formed c) (hmarks : Unmarked c) (config : CConfig) :
    parse (c.write 0) = .ok config ↔
      ((readEntries .empty c.configEntries.entries).bind fun d => c.subConfigs.read d) = some config := by
  have hkeys := forall_mem_append.1 h.keys
  have hmarks := forall_mem_append.1 hmarks
  have hreads := (reads_entries 0 c.configEntries.entries hkeys.1 hmarks.1).append
    (reads_subs 0 c.subConfigs hkeys.2 hmarks.2 h.tags)
    ⟨0, .empty, [], false⟩ rfl
  change Becomes _ (c.write 0)
    ((readEntries .empty c.configEntries.entries).bind fun d => c.subConfigs.read d) at hreads
  cases hread : (readEntries .empty c.configEntries.entries).bind fun d => c.subConfigs.read d with
  | none =>
    rw [hread] at hreads
    obtain ⟨sErrorMsg, herror⟩ := hreads
    have hall := herror []
    rw [append_nil] at hall
    rw [parse, hall]
    exact iff_of_false (fun h => nomatch h) fun h => nomatch h
  | some d =>
    rw [hread] at hreads
    obtain ⟨u, hlast⟩ := hreads
    have hall := hlast []
    rw [append_nil] at hall
    have hparse : parse (c.write 0) = .ok d := by
      rw [parse, hall]
      rfl
    rw [hparse, Except.ok.injEq, some.injEq]

theorem has_emplaceBack (subs : SubConfigs) (sTag sName sTag' sName' : CString) (config : CConfig) :
    (subs.emplaceBack sTag sName config).has sTag' sName' = true ↔
      (sTag = sTag' ∧ sName = sName') ∨ subs.has sTag' sName' = true := by
  induction subs with
  | nil => simp [SubConfigs.emplaceBack, SubConfigs.has]
  | block t n entries subs rest _ ih =>
    rw [SubConfigs.emplaceBack]
    split
    · simp [SubConfigs.has]
    · simp only [SubConfigs.has, Bool.or_eq_true, ih]
      exact or_left_comm

theorem readEntries_eq_some (c : CConfig) (entries : List (CString × VCString)) (d : CConfig) :
    readEntries c entries = some d ↔
      (∀ it ∈ entries, ∀ sValue ∈ it.2, singleLine sValue ≠ []) ∧ addEntries singleLine c entries = d := by
  rw [readEntries]
  split
  · rename_i hvalues
    rw [some.injEq]
    exact (and_iff_right hvalues).symm
  · rename_i hvalues
    exact iff_of_false (fun h => nomatch h) fun h => hvalues h.1

theorem read_eq_some (subs : SubConfigs) (c d : CConfig) :
    subs.read c = some d ↔
      (∀ it ∈ subs.allEntries, ∀ sValue ∈ it.2, singleLine sValue ≠ []) ∧ subs.Distinct ∧
        (∀ label ∈ subs.labels, ¬c.subConfigs.has label.1 label.2 = true) ∧ subs.addTo singleLine c = d := by
  induction subs generalizing c d with
  | nil => simp [SubConfigs.read, SubConfigs.allEntries, SubConfigs.Distinct, SubConfigs.labels, SubConfigs.addTo]
  | block sTag sName entries subs rest ihsubs ihrest =>
    have hchild (config : CConfig) : ((readEntries .empty entries.entries).bind fun c => subs.read c) = some config ↔
        (∀ it ∈ entries.entries, ∀ sValue ∈ it.2, singleLine sValue ≠ []) ∧
          (∀ it ∈ subs.allEntries, ∀ sValue ∈ it.2, singleLine sValue ≠ []) ∧ subs.Distinct ∧
            subs.addTo singleLine (addEntries singleLine .empty entries.entries) = config := by
      rw [bind_eq_some_iff]
      constructor
      · rintro ⟨c', hentries, hsubs⟩
        obtain ⟨hvalues, rfl⟩ := (readEntries_eq_some _ _ _).1 hentries
        obtain ⟨hsubValues, hdistinct, -, hadd⟩ := (ihsubs _ _).1 hsubs
        exact ⟨hvalues, hsubValues, hdistinct, hadd⟩
      · rintro ⟨hvalues, hsubValues, hdistinct, hadd⟩
        refine ⟨_, (readEntries_eq_some _ _ _).2 ⟨hvalues, rfl⟩, (ihsubs _ _).2 ⟨hsubValues, hdistinct, ?_, hadd⟩⟩
        exact fun label _ => Bool.false_ne_true
    rw [SubConfigs.read, bind_eq_some_iff]
    simp only [SubConfigs.allEntries, forall_mem_append, SubConfigs.Distinct, SubConfigs.labels, forall_mem_cons,
      SubConfigs.addTo, hchild]
    constructor
    · rintro ⟨config, ⟨hentries, hsubs, hdistinct, rfl⟩, hrest⟩
      split at hrest
      · cases hrest
      · rename_i hhas
        obtain ⟨hvalues, hdistinctRest, hfree, hadd⟩ := (ihrest _ _).1 hrest
        have hfree' (label : CString × CString) (hlabel : label ∈ rest.labels) :=
          mt (has_emplaceBack _ _ _ _ _ _).2 (hfree label hlabel)
        refine ⟨⟨⟨hentries, hsubs⟩, hvalues⟩, ⟨fun hmem => ?_, hdistinct, hdistinctRest⟩,
          ⟨hhas, fun label hlabel => ?_⟩, hadd⟩
        · exact hfree' _ hmem (.inl ⟨rfl, rfl⟩)
        · exact (not_or.1 (hfree' label hlabel)).2
    · rintro ⟨⟨⟨hentries, hsubs⟩, hvalues⟩, ⟨hnew, hdistinct, hdistinctRest⟩, ⟨hhas, hfree⟩, hadd⟩
      refine ⟨_, ⟨hentries, hsubs, hdistinct, rfl⟩, ?_⟩
      rw [if_neg hhas]
      refine (ihrest _ _).2 ⟨hvalues, hdistinctRest, fun label hlabel h => ?_, hadd⟩
      rcases (has_emplaceBack _ _ _ _ _ _).1 h with ⟨htag, hname⟩ | h
      · exact hnew (by rwa [htag, hname])
      · exact hfree label hlabel h

/-- **The text of a config with keys, tags and names in order:** it is read as this config, with what `singleLine` leaves of its
values. -/
theorem parse_write {c : CConfig} (h : Formed c) (hmarks : Unmarked c) (config : CConfig) :
    parse (c.write 0) = .ok config ↔
      (∀ it ∈ c.allEntries, ∀ sValue ∈ it.2, singleLine sValue ≠ []) ∧ c.subConfigs.Distinct ∧
        c.lowered singleLine = config := by
  rw [reads_write h hmarks, bind_eq_some_iff, CConfig.allEntries, forall_mem_append]
  constructor
  · rintro ⟨d, hentries, hsubs⟩
    obtain ⟨hvalues, rfl⟩ := (readEntries_eq_some _ _ _).1 hentries
    obtain ⟨hsubValues, hdistinct, -, hadd⟩ := (read_eq_some _ _ _).1 hsubs
    exact ⟨⟨hvalues, hsubValues⟩, hdistinct, hadd⟩
  · rintro ⟨⟨hvalues, hsubValues⟩, hdistinct, hadd⟩
    refine ⟨_, (readEntries_eq_some _ _ _).2 ⟨hvalues, rfl⟩, (read_eq_some _ _ _).2 ⟨hsubValues, hdistinct, ?_, hadd⟩⟩
    exact fun label _ => Bool.false_ne_true

end ZNC.Config
