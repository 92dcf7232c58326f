/-
The round trip of a configuration: a config is written to a file, and the file is read.

Keys and tags come back in lower case. A value comes back without CR and LF and only up to its first NUL; if nothing is left
of it, its line is no entry any more and the whole text is refused.

Model: `Built` are the configs that `AddKeyValuePair` and `AddSubConfig` make, `lowered removed` is the config that should
come back. Keys may not begin like a comment or a tag.

Results:
- `round_trip_iff`: a config comes back if and only if it is `Good`;
- `nul_value`: a value that begins with NUL.
-/
import ZNC.ConfigForms

namespace ZNC.Config

open CString List SubConfigs

/-! ## Statement -/

inductive Built : CConfig → Prop
  | empty : Built .empty
  | addKeyValuePair {c : CConfig} (h : Built c) (sName sValue : CString) : Built (c.addKeyValuePair sName sValue)
  | addSubConfig {c config : CConfig} (h : Built c) (hconfig : Built config) (sTag sName : CString) :
    Built (c.addSubConfig sTag sName config).2

/-- without CR, LF and NUL -/
def removed (s : CString) : CString := s.filter fun c => Single c

/-- what is written is read back -/
def RoundTrips (c : CConfig) : Prop := parse (c.write 0) = .ok (c.lowered removed)

instance RoundTrips.decidable (c : CConfig) : Decidable (RoundTrips c) := inferInstanceAs (Decidable (_ = _))

/-- a value of which something is left before its first NUL, and nothing is lost behind it -/
def ValueOk (sValue : CString) : Prop :=
  (∃ c ∈ sValue.cStr, Single c) ∧ ∀ c ∈ sValue.drop sValue.cStr.length, ¬Single c

structure Good (c : CConfig) : Prop extends Formed c where
  values : ∀ it ∈ c.allEntries, ∀ sValue ∈ it.2, ValueOk sValue
  distinct : c.subConfigs.Distinct

instance ValueOk.decidable (sValue : CString) : Decidable (ValueOk sValue) :=
  inferInstanceAs (Decidable ((∃ c ∈ sValue.cStr, Single c) ∧ ∀ c ∈ sValue.drop sValue.cStr.length, ¬Single c))

variable (f : CString → CString) (c : CConfig) (entries : List (CString × VCString))

theorem write_clean : ∀ b ∈ c.write 0, b ≠ 0 ∧ b ≠ ch '\r' := by
  have hline {s : CString} {b : UInt8} (hb : b ∈ singleLine s ++ lit "\n") : b ≠ 0 ∧ b ≠ ch '\r' := by
    rcases mem_append.1 hb with hb | hb
    · exact ⟨(single_singleLine hb).1, (single_singleLine hb).2.1⟩
    · rw [mem_singleton.1 hb]
      decide
  have hentries (iIndentation : ℕ) (entries : List (CString × VCString)) (b : UInt8)
    (hb : b ∈ writeEntries iIndentation entries) :
      b ≠ 0 ∧ b ≠ ch '\r' := by
    obtain ⟨it, -, hb⟩ := mem_flatMap.1 hb
    obtain ⟨sValue, -, hb⟩ := mem_flatMap.1 hb
    exact hline hb
  have hsubs (subs : SubConfigs) (iIndentation : ℕ) (b : UInt8) (hb : b ∈ subs.write iIndentation) :
    b ≠ 0 ∧ b ≠ ch '\r' := by
    induction subs generalizing iIndentation with
    | nil => cases hb
    | block sTag sName entries subs rest ihsubs ihrest =>
      have htext : (block sTag sName entries subs rest).write iIndentation =
          lit "\n" ++ (openLine iIndentation sTag sName ++ lit "\n") ++
            writeEntries (iIndentation + 1) entries.entries ++
            subs.write (iIndentation + 1) ++ (closeLine iIndentation sTag ++ lit "\n") ++ rest.write iIndentation := by
        simp only [write, append_assoc]
      rw [htext] at hb
      simp only [mem_append] at hb
      rcases hb with ((((hb | hb) | hb) | hb) | hb) | hb
      · rw [mem_singleton.1 hb]
        decide
      · exact hline (mem_append.2 hb)
      · exact hentries _ _ _ hb
      · exact ihsubs _ hb
      · exact hline (mem_append.2 hb)
      · exact ihrest _ hb
  intro b hb
  rcases mem_append.1 hb with hb | hb
  · exact hentries _ _ b hb
  · exact hsubs _ _ b hb

/-! ## The config that should come back -/

/-- the entries one by one -/
def pairs (entries : List (CString × VCString)) : List (CString × CString) :=
  entries.flatMap fun it => it.2.map fun sValue => (it.1, sValue)

theorem mem_pairs {entries : List (CString × VCString)} {p : CString × CString} :
    p ∈ pairs entries ↔ ∃ it ∈ entries, it.1 = p.1 ∧ p.2 ∈ it.2 := by
  simp only [pairs, mem_flatMap, mem_map]
  constructor
  · rintro ⟨it, hit, sValue, hvalue, rfl⟩
    exact ⟨it, hit, rfl, hvalue⟩
  · rintro ⟨it, hit, hkey, hvalue⟩
    exact ⟨it, hit, p.2, hvalue, by rw [hkey]⟩

theorem addEntries_eq :
    addEntries f c entries =
      { c with configEntries := (pairs entries).foldl (fun m p =>
                 EntryMap.pushBack m p.1.asLower (f p.2)) c.configEntries } := by
  rw [addEntries, pairs, foldl_flatMap]
  simp only [foldl_map]

theorem formed_addEntries (h : Formed (addEntries f c entries)) : Formed c ∧ ∀ p ∈ pairs entries, KeyOk p.1 := by
  have hall (ps : List (CString × CString)) (m : EntryMap)
      (h : Formed { c with configEntries := ps.foldl (fun m p => EntryMap.pushBack m p.1.asLower (f p.2)) m }) :
      Formed { c with configEntries := m } ∧ ∀ p ∈ ps, KeyOk p.1 := by
    induction ps generalizing m with
    | nil => exact ⟨h, fun p hp => nomatch hp⟩
    | cons p ps ih =>
      obtain ⟨hm, hrest⟩ := ih _ h
      obtain ⟨hkey, hm⟩ := (formed_pushBack { c with configEntries := m } _ _).1 hm
      exact ⟨hm, forall_mem_cons.2 ⟨(keyOk_asLower p.1).1 hkey, hrest⟩⟩
  rw [addEntries_eq] at h
  exact hall (pairs entries) c.configEntries h

theorem formed_addTo (subs : SubConfigs) (c : CConfig) (h : Formed (subs.addTo f c)) :
    Formed c ∧ (∀ p ∈ pairs subs.allEntries, KeyOk p.1) ∧ ∀ block ∈ subs.allBlocks, TagOk block.1 ∧ Tidy block.2 := by
  induction subs generalizing c with
  | nil => exact ⟨h, fun p hp => absurd hp List.not_mem_nil, fun block hblock => absurd hblock List.not_mem_nil⟩
  | block sTag sName entries subs rest ihsubs ihrest =>
    obtain ⟨hblock, hkeysRest, htagsRest⟩ := ihrest _ h
    obtain ⟨⟨htag, hname⟩, hconfig, hc⟩ := (formed_emplaceBack _ _ _ _).1 hblock
    obtain ⟨hentries, hkeysSubs, htagsSubs⟩ := ihsubs _ hconfig
    have hkeys := (formed_addEntries _ _ _ hentries).2
    refine ⟨hc, ?_, ?_⟩
    · simp only [allEntries, pairs, flatMap_append, forall_mem_append]
      exact ⟨⟨hkeys, hkeysSubs⟩, hkeysRest⟩
    · simp only [allBlocks, cons_append, forall_mem_cons, forall_mem_append]
      exact ⟨⟨(tagOk_asLower sTag).1 htag, hname⟩, htagsSubs, htagsRest⟩

/-! ### The bytes of all values -/

/-- how many bytes the values have, when they are changed -/
def valueBytes (f : CString → CString) (entries : List (CString × VCString)) : ℕ :=
  ((pairs entries).map fun p => (f p.2).length).sum

theorem valueBytes_append (entries' : List (CString × VCString)) :
    valueBytes f (entries ++ entries') = valueBytes f entries + valueBytes f entries' := by
  rw [valueBytes, pairs, flatMap_append, map_append, sum_append]
  rfl

theorem valueBytes_cons (it : CString × VCString) (entries : List (CString × VCString)) :
    valueBytes f (it :: entries) = (it.2.map fun sValue => (f sValue).length).sum + valueBytes f entries := by
  rw [valueBytes, pairs, flatMap_cons, map_append, sum_append, map_map]
  rfl

theorem valueBytes_pushBack (m : EntryMap) (sName sValue : CString) :
    valueBytes id (EntryMap.pushBack m sName sValue).entries = valueBytes id m.entries + sValue.length := by
  have hlist (l : List (CString × VCString)) (hl : l.Pairwise fun a b => a.1 < b.1) :
      valueBytes id (OrdMap.insertList sName ((OrdMap.findList sName l).getD [] ++ [sValue]) l) =
        valueBytes id l + sValue.length := by
    induction l with
    | nil => simp [OrdMap.insertList, OrdMap.findList, valueBytes, pairs]
    | cons it l ih =>
      obtain ⟨hit, hl⟩ := pairwise_cons.1 hl
      rw [OrdMap.insertList, OrdMap.findList]
      by_cases hsame : it.1 = sName
      · rw [if_pos hsame, if_neg (by rw [hsame]; exact lt_irrefl _), if_pos hsame.symm, Option.getD_some,
          valueBytes_cons, valueBytes_cons, map_append, sum_append, map_singleton, sum_singleton]
        simp only [id]
        omega
      · rw [if_neg hsame]
        split
        · rename_i hlt
          -- no later key is this one
          have hnone : OrdMap.findList sName l = none := by
            cases hfind : OrdMap.findList sName l with
            | none => rfl
            | some vs =>
              have hmem := (OrdMap.mem_entries_iff ⟨l, hl⟩ sName vs).2 hfind
              exact absurd (hlt.trans (hit _ hmem)) (lt_irrefl _)
          rw [hnone, Option.getD_none, nil_append, valueBytes_cons, map_singleton, sum_singleton]
          exact Nat.add_comm _ _
        · rw [if_neg fun h => hsame h.symm, valueBytes_cons, valueBytes_cons, ih hl]
          omega
  exact hlist m.entries m.sorted

theorem valueBytes_emplaceBack (subs : SubConfigs) (sTag sName : CString) (config : CConfig) :
    valueBytes id (subs.emplaceBack sTag sName config).allEntries =
      valueBytes id subs.allEntries + valueBytes id config.allEntries := by
  induction subs with
  | nil => simp only [emplaceBack, allEntries, CConfig.allEntries, valueBytes_append]; omega
  | block t n entries subs rest _ ih =>
    rw [emplaceBack]
    split
    · simp only [allEntries, CConfig.allEntries, valueBytes_append]
      omega
    · simp only [allEntries, valueBytes_append, ih]
      omega

theorem valueBytes_addEntries :
    valueBytes id (addEntries f c entries).allEntries = valueBytes id c.allEntries + valueBytes f entries := by
  have hall (ps : List (CString × CString)) (m : EntryMap) :
      valueBytes id (ps.foldl (fun m p => EntryMap.pushBack m p.1.asLower (f p.2)) m).entries =
        valueBytes id m.entries + (ps.map fun p => (f p.2).length).sum := by
    induction ps generalizing m with
    | nil => rfl
    | cons p ps ih =>
      rw [foldl_cons, ih, valueBytes_pushBack, map_cons, sum_cons, Nat.add_assoc]
  rw [addEntries_eq, CConfig.allEntries, valueBytes_append, hall, CConfig.allEntries,
    valueBytes_append, valueBytes.eq_1 f]
  dsimp only
  omega

theorem valueBytes_addTo (subs : SubConfigs) (c : CConfig) :
    valueBytes id (subs.addTo f c).allEntries = valueBytes id c.allEntries + valueBytes f subs.allEntries := by
  induction subs generalizing c with
  | nil => rfl
  | block sTag sName entries subs rest ihsubs ihrest =>
    have hempty : valueBytes id CConfig.empty.allEntries = 0 := rfl
    have hblock (config : CConfig) : valueBytes id (c.emplaceBack sTag.asLower sName config).allEntries =
        valueBytes id c.allEntries + valueBytes id config.allEntries := by
      rw [CConfig.allEntries, valueBytes_append, CConfig.emplaceBack, valueBytes_emplaceBack, CConfig.allEntries.eq_1 c,
        valueBytes_append, Nat.add_assoc]
    rw [addTo, ihrest, hblock, ihsubs, valueBytes_addEntries, hempty, allEntries, valueBytes_append,
      valueBytes_append]
    omega

theorem valueBytes_lowered :
    valueBytes id (c.lowered f).allEntries = valueBytes f c.allEntries := by
  have hempty : valueBytes id CConfig.empty.allEntries = 0 := rfl
  rw [CConfig.lowered, valueBytes_addTo, valueBytes_addEntries, hempty, Nat.zero_add,
    CConfig.allEntries, valueBytes_append]

theorem addEntries_congr {f g : CString → CString} {entries : List (CString × VCString)}
    (h : ∀ it ∈ entries, ∀ sValue ∈ it.2, f sValue = g sValue) : addEntries f c entries = addEntries g c entries := by
  rw [addEntries_eq, addEntries_eq]
  congr 1
  refine foldl_ext _ _ _ fun m p hp => ?_
  obtain ⟨it, hit, -, hvalue⟩ := mem_pairs.1 hp
  rw [h it hit p.2 hvalue]

theorem lowered_congr {f g : CString → CString} {c : CConfig}
    (h : ∀ it ∈ c.allEntries, ∀ sValue ∈ it.2, f sValue = g sValue) :
    c.lowered f = c.lowered g := by
  have hsubs (subs : SubConfigs) (h : ∀ it ∈ subs.allEntries, ∀ sValue ∈ it.2, f sValue = g sValue) (c : CConfig) :
      subs.addTo f c = subs.addTo g c := by
    induction subs generalizing c with
    | nil => rfl
    | block sTag sName entries subs rest ihsubs ihrest =>
      simp only [allEntries, forall_mem_append] at h
      rw [addTo, addTo, addEntries_congr _ h.1.1, ihsubs h.1.2, ihrest h.2]
  obtain ⟨hentries, hblocks⟩ := forall_mem_append.1 h
  rw [CConfig.lowered, CConfig.lowered, addEntries_congr _ hentries, hsubs _ hblocks]

/-! ## Values -/

theorem singleLine_eq (s : CString) : singleLine s = s.cStr.filter fun c => Single c := by
  have hnul (c : UInt8) (hc : c ∈ s.remove_n (ch '\r')) : c ≠ 0 := by
    simpa using mem_takeWhile_imp (mem_filter.1 hc).1
  rw [singleLine, remove_n, cStr_eq_self fun h => hnul 0 h rfl, remove_n, filter_filter]
  refine filter_congr fun c hc => ?_
  have h0 : c ≠ 0 := by simpa using mem_takeWhile_imp hc
  simp [Single, h0, and_comm]

theorem removed_eq (s : CString) : removed s = singleLine s ++ (s.drop s.cStr.length).filter fun c => Single c := by
  have hsplit : s.cStr ++ s.drop s.cStr.length = s := prefix_iff_eq_append.1 (List.takeWhile_prefix _)
  rw [removed, singleLine_eq, ← filter_append, hsplit]

theorem valueOk_iff (s : CString) : ValueOk s ↔ singleLine s ≠ [] ∧ singleLine s = removed s := by
  have hlost : singleLine s = removed s ↔ ∀ c ∈ s.drop s.cStr.length, ¬Single c := by
    rw [removed_eq, self_eq_append_right]
    simp
  have hleft : singleLine s ≠ [] ↔ ∃ c ∈ s.cStr, Single c := by
    rw [singleLine_eq, ne_eq, filter_eq_nil_iff]
    simp
  rw [hlost, hleft, ValueOk]

theorem eq_of_sum_eq {α : Type} {l : List α} {g h : α → ℕ} (hle : ∀ a ∈ l, g a ≤ h a)
    (hsum : (l.map g).sum = (l.map h).sum) :
    ∀ a ∈ l, g a = h a := by
  induction l with
  | nil => exact fun a ha => nomatch ha
  | cons b l ih =>
    obtain ⟨hb, hl⟩ := forall_mem_cons.1 hle
    have hrest : (l.map g).sum ≤ (l.map h).sum := sum_le_sum hl
    rw [map_cons, map_cons, sum_cons, sum_cons] at hsum
    exact forall_mem_cons.2 ⟨by omega, ih hl (by omega)⟩

theorem singleLine_eq_removed {c : CConfig} (h : c.lowered singleLine = c.lowered removed) :
    ∀ it ∈ c.allEntries, ∀ sValue ∈ it.2, singleLine sValue = removed sValue := by
  have hbytes : valueBytes singleLine c.allEntries = valueBytes removed c.allEntries := by
    calc valueBytes singleLine c.allEntries = valueBytes id (c.lowered singleLine).allEntries :=
      (valueBytes_lowered _ _).symm
      _ = valueBytes id (c.lowered removed).allEntries := by rw [h]
      _ = valueBytes removed c.allEntries := valueBytes_lowered _ _
  have hstart (s : CString) : singleLine s <+: removed s := by
    rw [removed_eq]
    exact prefix_append _ _
  have hlengths := eq_of_sum_eq (fun p _ => (hstart p.2).length_le) hbytes
  intro it hit sValue hvalue
  exact (hstart sValue).eq_of_length (hlengths (it.1, sValue) (mem_pairs.2 ⟨it, hit, rfl, hvalue⟩))

/-! ## The round trip -/

theorem Built.stocked {c : CConfig} (h : Built c) : ∀ it ∈ c.allEntries, it.2 ≠ [] := by
  induction h with
  | empty => exact fun it hit => nomatch hit
  | @addKeyValuePair c _ sName sValue ih =>
    rw [CConfig.addKeyValuePair]
    split
    · exact ih
    · rw [CConfig.allEntries, forall_mem_append] at ih ⊢
      refine ⟨fun it hit => ?_, ih.2⟩
      have hfind := (OrdMap.mem_entries_iff _ it.1 it.2).1 hit
      rw [EntryMap.pushBack, OrdMap.find_insert] at hfind
      split at hfind
      · rw [← Option.some.inj hfind]
        exact append_ne_nil_of_right_ne_nil _ (cons_ne_nil _ _)
      · exact ih.1 it ((OrdMap.mem_entries_iff _ it.1 it.2).2 hfind)
  | @addSubConfig c config _ _ sTag sName ih ihconfig =>
    rw [CConfig.addSubConfig]
    split
    · exact ih
    · rw [CConfig.allEntries, forall_mem_append] at ih ⊢
      refine ⟨ih.1, fun it hit => ?_⟩
      rcases ((mem_emplaceBack _ _ _ _).1 it).1 hit with hit | hit
      · exact ihconfig it hit
      · exact ih.2 it hit

/-- A config comes back from its file **if and only if** its keys, tags and names are in order, no two of its blocks are one
ignoring case, and of each value something is left before its first NUL and nothing is lost behind it. -/
theorem round_trip_iff {c : CConfig} (h : Built c) (hmarks : Unmarked c) : RoundTrips c ↔ Good c := by
  constructor
  · intro htrip
    -- keys, tags and names: those of what was read are in order
    have hlowered := parse_formed (write_clean c) htrip
    obtain ⟨hentries, hkeys, htags⟩ := formed_addTo _ _ _ hlowered
    have hkeysHere := (formed_addEntries _ _ _ hentries).2
    have hkeysAll : ∀ it ∈ c.allEntries, KeyOk it.1 := by
      intro it hit
      obtain ⟨sValue, hvalue⟩ := exists_mem_of_ne_nil _ (h.stocked it hit)
      rcases mem_append.1 hit with hmem | hmem
      · exact hkeysHere (it.1, sValue) (mem_pairs.2 ⟨it, hmem, rfl, hvalue⟩)
      · exact hkeys (it.1, sValue) (mem_pairs.2 ⟨it, hmem, rfl, hvalue⟩)
    have hformed : Formed c := ⟨hkeysAll, htags⟩
    obtain ⟨hvalues, hdistinct, hsame⟩ := (parse_write hformed hmarks _).1 htrip
    refine { hformed with values := fun it hit sValue hvalue => ?_, distinct := hdistinct }
    exact (valueOk_iff sValue).2 ⟨hvalues it hit sValue hvalue, singleLine_eq_removed hsame it hit sValue hvalue⟩
  · intro hgood
    have hvalues := fun it hit sValue hvalue => (valueOk_iff sValue).1 (hgood.values it hit sValue hvalue)
    refine (parse_write hgood.toFormed hmarks _).2
      ⟨fun it hit sValue hvalue => (hvalues it hit sValue hvalue).1, hgood.distinct, ?_⟩
    exact lowered_congr fun it hit sValue hvalue => (hvalues it hit sValue hvalue).2

/-- a user with a nick, a quit message and a channel -/
def userConfig (sQuitMsg : CString) : CConfig :=
  ((CConfig.empty.addKeyValuePair (lit "Nick") (lit "alice")).addKeyValuePair (lit "QuitMsg") sQuitMsg).addSubConfig
    (lit "Chan") (lit "#znc") (CConfig.empty.addKeyValuePair (lit "Buffer") (lit "50")) |>.2

theorem userConfig_built (sQuitMsg : CString) : Built (userConfig sQuitMsg) :=
  ((Built.empty.addKeyValuePair _ _).addKeyValuePair _ _).addSubConfig (Built.empty.addKeyValuePair _ _) _ _

theorem round_trip_user : RoundTrips (userConfig (lit "bye = bye\r\n")) :=
  (round_trip_iff (userConfig_built _) (by decide +kernel)).2
    ⟨⟨by decide +kernel, by decide +kernel⟩, by decide +kernel, by decide +kernel⟩

/-- **A value that begins with NUL:** its line is refused, and with it the whole text. -/
theorem nul_value : Built (userConfig (0 :: lit "bye")) ∧ Formed (userConfig (0 :: lit "bye")) ∧
    Unmarked (userConfig (0 :: lit "bye")) ∧ ¬RoundTrips (userConfig (0 :: lit "bye")) :=
  ⟨userConfig_built _, ⟨by decide +kernel, by decide +kernel⟩, by decide +kernel, by decide +kernel⟩

end ZNC.Config
