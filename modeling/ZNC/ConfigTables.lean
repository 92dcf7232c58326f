/-
Configs that are written from tables: one for the keys of the config, and one for each of its blocks.

A table has the keys in the order in which they are written, each with its values; an empty value is not written. The file gives
the keys back in lower case, and the blocks in their order. A block that is read is a table again, and its keys are taken out one
after the other.

Results:
- `parse_tablesConfig`: what the file of some tables is read as;
- `Holds.take`, `Holds.skip`, `Holds.isEmpty`: keys that are taken out of a table.
-/
import ZNC.UserRestart

namespace ZNC.ConfigTables

open CString Config List
open NetworkClone (addTable look Full nonempty valuesOf blocks)
open UserConfig (look_reread built_addTable mem_addTable valueOk_of_mem Without findStringEntry_spec findStringVector_spec)

/-! ## Writing -/

/-- the keys of a table are read as they are written, no two of them are one ignoring case, and each value is on one line -/
structure TableOk (table : List (CString × VCString)) : Prop where
  keys : ∀ e ∈ table, KeyOk e.1 ∧ ∀ b ∈ e.1.head?, b ∉ marks
  lower : (table.map fun e => e.1.asLower).Nodup
  single : ∀ e ∈ table, ∀ sValue ∈ e.2, ∀ c ∈ sValue, Single c

/-- a table that is read again -/
def reread (table : List (CString × VCString)) : CConfig :=
  addEntries removed .empty (addTable table .empty).configEntries.entries

/-- a table with blocks of one tag -/
def tablesConfig (table : List (CString × VCString)) (sTag : CString)
    (bs : List (CString × List (CString × VCString))) :
    CConfig :=
  ⟨(addTable table .empty).configEntries, blocks sTag (bs.map fun b => (b.1, addTable b.2 .empty))⟩

section Tables

variable {table : List (CString × VCString)}

theorem TableOk.nil_not_mem (h : TableOk table) : [] ∉ table.map Prod.fst := by
  intro hmem
  obtain ⟨e, he, hnil⟩ := mem_map.1 hmem
  exact (h.keys e he).1.ne hnil

theorem subConfigs_addTable (table : List (CString × VCString)) : (addTable table .empty).subConfigs = .nil :=
  (NetworkClone.addTable_spec table .empty).2.1

/-- **A table comes back** under its keys in lower case. -/
theorem TableOk.reread_spec (h : TableOk table) :
    Full (reread table) ∧ (∀ e ∈ table, look (reread table) e.1.asLower = nonempty e.2) ∧
      ∀ k ∉ table.map fun e => e.1.asLower, look (reread table) k = [] :=
  look_reread h.nil_not_mem h.lower h.single rfl

theorem TableOk.entries (h : TableOk table) : ∀ it ∈ (addTable table .empty).configEntries.entries,
    KeyOk it.1 ∧ (∀ b ∈ it.1.head?, b ∉ marks) ∧ ∀ sValue ∈ it.2, ValueOk sValue := by
  intro it hit
  obtain ⟨hkey, hvalues⟩ := mem_addTable h.nil_not_mem rfl hit
  obtain ⟨e, he, hkey⟩ := mem_map.1 hkey
  rw [← hkey]
  refine ⟨(h.keys e he).1, (h.keys e he).2, fun sValue hvalue => ?_⟩
  rw [hvalues] at hvalue
  exact (valueOk_of_mem h.single hvalue).1

end Tables

/-! ### Blocks -/

variable {sTag : CString} {cs : List (CString × CConfig)}

theorem mem_allEntries_blocks (hcs : ∀ c ∈ cs, c.2.subConfigs = .nil) {it : CString × VCString}
    (hit : it ∈ (blocks sTag cs).allEntries) : ∃ c ∈ cs, it ∈ c.2.configEntries.entries := by
  induction cs with
  | nil => cases hit
  | cons c cs ih =>
    obtain ⟨hc, hcs⟩ := forall_mem_cons.1 hcs
    rw [blocks, SubConfigs.allEntries, hc, mem_append, mem_append] at hit
    rcases hit with (hit | hit) | hit
    · exact ⟨c, mem_cons_self, hit⟩
    · cases hit
    · obtain ⟨c', hc', hit⟩ := ih hcs hit
      exact ⟨c', mem_cons_of_mem _ hc', hit⟩

theorem mem_allBlocks_blocks (hcs : ∀ c ∈ cs, c.2.subConfigs = .nil) {block : CString × CString}
    (hblock : block ∈ (blocks sTag cs).allBlocks) :
    block.1 = sTag ∧ block.2 ∈ cs.map Prod.fst := by
  induction cs with
  | nil => cases hblock
  | cons c cs ih =>
    obtain ⟨hc, hcs⟩ := forall_mem_cons.1 hcs
    simp only [blocks, SubConfigs.allBlocks, hc, cons_append, nil_append, mem_cons] at hblock
    rcases hblock with rfl | hblock
    · exact ⟨rfl, mem_cons_self⟩
    · exact ⟨(ih hcs hblock).1, mem_cons_of_mem _ (ih hcs hblock).2⟩

theorem labels_blocks (sTag : CString) (cs : List (CString × CConfig)) :
    (blocks sTag cs).labels = cs.map fun c => (sTag.asLower, c.1) := by
  induction cs with
  | nil => rfl
  | cons c cs ih => rw [blocks, SubConfigs.labels, ih, map_cons]

theorem distinct_blocks {sTag : CString} {cs : List (CString × CConfig)} (hcs : ∀ c ∈ cs, c.2.subConfigs = .nil)
    (hnodup : (cs.map Prod.fst).Nodup) : (blocks sTag cs).Distinct := by
  induction cs with
  | nil => exact trivial
  | cons c cs ih =>
    obtain ⟨hc, hcs⟩ := forall_mem_cons.1 hcs
    rw [map_cons, nodup_cons] at hnodup
    rw [blocks, SubConfigs.Distinct, labels_blocks, hc]
    refine ⟨fun hmem => hnodup.1 ?_, trivial, ih hcs hnodup.2⟩
    obtain ⟨c', hc', heq⟩ := mem_map.1 hmem
    exact mem_map.2 ⟨c', hc', (Prod.mk.inj heq).2⟩

theorem addTo_blocks (f : CString → CString) (sTag : CString) (entries : EntryMap)
    (hcs : ∀ c ∈ cs, c.2.subConfigs = .nil) (acc : List (CString × CConfig)) :
    (blocks sTag cs).addTo f ⟨entries, blocks sTag.asLower acc⟩ =
      ⟨entries, blocks sTag.asLower (acc ++ cs.map fun c => (c.1, addEntries f .empty c.2.configEntries.entries))⟩ := by
  induction cs generalizing acc with
  | nil => simp [blocks, SubConfigs.addTo]
  | cons c cs ih =>
    obtain ⟨hc, hcs⟩ := forall_mem_cons.1 hcs
    rw [blocks, SubConfigs.addTo, hc, CConfig.emplaceBack, NetworkClone.emplaceBack_blocks, ih hcs, SubConfigs.addTo]
    simp

theorem split_blocks (sTag : CString) (cs : List (CString × CConfig)) : (blocks sTag cs).split sTag = (cs, .nil) := by
  induction cs with
  | nil => rfl
  | cons c cs ih => rw [blocks, SubConfigs.split, if_pos rfl, ih]

theorem parse_tablesConfig {table : List (CString × VCString)} {bs : List (CString × List (CString × VCString))}
    (htable : TableOk table) (htag : TagOk sTag) (hbs : ∀ b ∈ bs, Tidy b.1 ∧ TableOk b.2)
    (hnodup : (bs.map Prod.fst).Nodup) :
    parse ((tablesConfig table sTag bs).write 0) =
      .ok ⟨(reread table).configEntries, blocks sTag.asLower (bs.map fun b => (b.1, reread b.2))⟩ := by
  set cs := bs.map fun b => (b.1, addTable b.2 .empty) with hcs
  have hsubs : ∀ c ∈ cs, c.2.subConfigs = .nil := by
    intro c hc
    obtain ⟨b, -, rfl⟩ := mem_map.1 hc
    exact subConfigs_addTable b.2
  have hnames : cs.map Prod.fst = bs.map Prod.fst := by
    rw [hcs, map_map]
    rfl
  have hentries {it : CString × VCString} (hit : it ∈ (tablesConfig table sTag bs).allEntries) :
      KeyOk it.1 ∧ (∀ b ∈ it.1.head?, b ∉ marks) ∧ ∀ sValue ∈ it.2, ValueOk sValue := by
    rcases mem_append.1 hit with hit | hit
    · exact htable.entries it hit
    · obtain ⟨c, hc, hit⟩ := mem_allEntries_blocks hsubs hit
      obtain ⟨b, hb, rfl⟩ := mem_map.1 hc
      exact (hbs b hb).2.entries it hit
  have hgood : Good (tablesConfig table sTag bs) := by
    refine ⟨⟨fun it hit => (hentries hit).1, fun block hblock => ?_⟩, fun it hit => (hentries hit).2.2, ?_⟩
    · obtain ⟨hblockTag, hname⟩ := mem_allBlocks_blocks hsubs hblock
      rw [hnames] at hname
      obtain ⟨b, hb, hname⟩ := mem_map.1 hname
      rw [hblockTag, ← hname]
      exact ⟨htag, (hbs b hb).1⟩
    · exact distinct_blocks hsubs (hnames ▸ hnodup)
  have hbuilt : Built (tablesConfig table sTag bs) := by
    have hadd := NetworkClone.addSubConfigs_eq sTag [] cs (addTable table .empty).configEntries (hnames ▸ hnodup)
    rw [nil_append] at hadd
    rw [tablesConfig, ← hcs, ← hadd]
    have hstart : Built ⟨(addTable table .empty).configEntries, blocks sTag []⟩ := by
      have htable := built_addTable table Built.empty
      have hnil := subConfigs_addTable table
      cases hc : addTable table .empty
      rw [hc] at htable hnil
      cases hnil
      exact htable
    have hall (l : List (CString × CConfig)) (hl : ∀ c ∈ l, Built c.2) {c₀ : CConfig} (hc₀ : Built c₀) :
        Built (l.foldl (fun (config : CConfig) c => (config.addSubConfig sTag c.1 c.2).2) c₀) := by
      induction l generalizing c₀ with
      | nil => exact hc₀
      | cons c l ih =>
        obtain ⟨hc, hl⟩ := forall_mem_cons.1 hl
        exact ih hl (hc₀.addSubConfig hc _ _)
    refine hall cs (fun c hc => ?_) hstart
    obtain ⟨b, -, rfl⟩ := mem_map.1 hc
    exact built_addTable b.2 Built.empty
  have hback : parse ((tablesConfig table sTag bs).write 0) = .ok ((tablesConfig table sTag bs).lowered removed) :=
    (round_trip_iff hbuilt fun it hit => (hentries hit).2.1).2 hgood
  have hread := addTo_blocks removed sTag (reread table).configEntries hsubs []
  rw [hback, CConfig.lowered]
  refine congrArg Except.ok (Eq.trans hread ?_)
  rw [nil_append, hcs, map_map]
  rfl

/-! ## Taking -/

theorem findStringEntry_fst (c : CConfig) (sName : CString) : (c.findStringEntry sName).1 = (look c sName).head? := by
  rw [CConfig.findStringEntry, look]
  cases c.configEntries.find sName with
  | none => rfl
  | some vsList =>
    cases vsList with
    | nil => rfl
    | cons s vsRest => cases vsRest <;> rfl

theorem findStringVector_fst (c : CConfig) (sName : CString) : (c.findStringVector sName).1 = look c sName := by
  rw [CConfig.findStringVector, look]
  cases c.configEntries.find sName <;> rfl

/-- the keys of a config, each with its values -/
structure Holds (c : CConfig) (table : List (CString × VCString)) : Prop where
  full : Full c
  look : ∀ e ∈ table, look c e.1 = e.2
  others : ∀ k ∉ table.map Prod.fst, NetworkClone.look c k = []

theorem TableOk.holds {table : List (CString × VCString)} (h : TableOk table) :
    Holds (reread table) (table.map fun e => (e.1.asLower, nonempty e.2)) := by
  obtain ⟨hfull, hlook, hothers⟩ := h.reread_spec
  refine ⟨hfull, fun e he => ?_, fun k hk => hothers k ?_⟩
  · obtain ⟨e', he', rfl⟩ := mem_map.1 he
    exact hlook e' he'
  · rwa [map_map] at hk

namespace Holds

variable {c : CConfig} {table : List (CString × VCString)}

theorem perm (h : Holds c table) {table' : List (CString × VCString)} (hperm : table.Perm table') : Holds c table' where
  full := h.full
  look e he := h.look e (hperm.mem_iff.2 he)
  others k hk := h.others k fun hmem => hk ((hperm.map Prod.fst).mem_iff.1 hmem)

theorem take {k : CString} {vs : VCString} (h : Holds c ((k, vs) :: table)) (hk : k ∉ table.map Prod.fst)
    (hone : vs.length ≤ 1) :
    ∃ c', c.findStringEntry k = (vs.head?, c') ∧ Holds c' table ∧ c'.subConfigs = c.subConfigs := by
  have hlook : NetworkClone.look c k = vs := h.look (k, vs) mem_cons_self
  obtain ⟨-, hwithout⟩ := findStringEntry_spec h.full (hlook ▸ hone)
  refine ⟨(c.findStringEntry k).2, Prod.ext ?_ rfl, ⟨hwithout.full, fun e he => ?_, fun k' hk' => ?_⟩,
    hwithout.subConfigs⟩
  · rw [findStringEntry_fst, hlook]
  · have hne : e.1 ≠ k := fun heq => hk (heq ▸ mem_map_of_mem he)
    rw [hwithout.look, if_neg hne]
    exact h.look e (mem_cons_of_mem _ he)
  · rw [hwithout.look]
    split_ifs with heq
    · rfl
    · refine h.others k' fun hmem => ?_
      rcases mem_cons.1 hmem with hmem | hmem
      · exact heq hmem
      · exact hk' hmem

/-- a key that is not there -/
theorem skip {k : CString} (h : Holds c table) (hk : k ∉ table.map Prod.fst) : c.findStringEntry k = (none, c) := by
  have hlook := h.others k hk
  rw [CConfig.findStringEntry]
  rw [NetworkClone.look] at hlook
  cases hfind : c.configEntries.find k with
  | none => rfl
  | some vsList =>
    rw [hfind, Option.getD_some] at hlook
    exact absurd (hlook ▸ hfind) (h.full k)

theorem isEmpty (h : Holds c []) (hsubs : c.subConfigs = .nil) : c.isEmpty = true :=
  UserConfig.isEmpty_of_look h.full (fun k => h.others k not_mem_nil) hsubs

end Holds

end ZNC.ConfigTables
