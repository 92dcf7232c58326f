/-
A rehash against a fresh process: `RehashConfig` of `src/znc.cpp`, from any state of a running process.

`LoadGlobal` clears its lists, unloads the modules that the file does not have and opens all listeners anew, but it assigns a
setting only when its key is there. A module that is loaded is looked for without regard to letter case, and is then unloaded
again if its name is not spelled as in the file.

Results:
- `loadListeners_same`, `modules_iff`: the listeners are always those of a fresh process, and the modules are so exactly if each
  that is found is spelled as in the file;
- `rehash_iff`: after a rehash everything is as in a fresh process exactly if each setting without a line had its default before;
- `keeps_skin`: a skin whose line was removed.
-/
import ZNC.GlobalConfig

namespace ZNC.Global

open CString Config List Option
open NetworkClone (CModule CModules SameMod validateModuleName look)

/-! ## Statement -/

/-- **The settings of two states,** with the global modules as a set -/
structure SameGlobal (z z' : CZNC) : Prop where
  settings : ∀ setting, Agree setting z z'
  motd : z.vsMotd = z'.vsMotd
  proxies : z.vsTrustedProxies = z'.vsTrustedProxies
  clientCaps : z.ssClientCapBlacklist = z'.ssClientCapBlacklist
  serverCaps : z.ssServerCapBlacklist = z'.ssServerCapBlacklist
  modules : ∀ pMod, pMod ∈ z.modules.vMods ↔ pMod ∈ z'.modules.vMods
  listeners : z.vpListeners = z'.vpListeners

theorem SameGlobal.symm {z z' : CZNC} (h : SameGlobal z z') : SameGlobal z' z where
  settings setting := (agree_equivalence setting).symm (h.settings setting)
  motd := h.motd.symm
  proxies := h.proxies.symm
  clientCaps := h.clientCaps.symm
  serverCaps := h.serverCaps.symm
  modules pMod := (h.modules pMod).symm
  listeners := h.listeners.symm

theorem SameGlobal.trans {a b c : CZNC} (h : SameGlobal a b) (h' : SameGlobal b c) : SameGlobal a c where
  settings setting := (agree_equivalence setting).trans (h.settings setting) (h'.settings setting)
  motd := h.motd.trans h'.motd
  proxies := h.proxies.trans h'.proxies
  clientCaps := h.clientCaps.trans h'.clientCaps
  serverCaps := h.serverCaps.trans h'.serverCaps
  modules pMod := (h.modules pMod).trans (h'.modules pMod)
  listeners := h.listeners.trans h'.listeners

/-- the states of a process: it starts, reads its file for the first time or again, is changed in everything but its modules, and
loads and unloads modules -/
inductive Running (env : Env) : CZNC → Prop
  | start : Running env (.new env)
  | rehash {z r : CZNC} (h : Running env z) {sFile : CString} (hr : z.rehashConfig env sFile = .ok r) : Running env r
  | set {z z' : CZNC} (h : Running env z) (hmods : z'.modules = z.modules) : Running env z'
  | load {z : CZNC} (h : Running env z) {sModule sArgs : CString} {ms : CModules}
      (hload : loadModule env z.modules sModule sArgs = .ok ms) : Running env { z with modules := ms }
  | unload {z : CZNC} (h : Running env z) (sModule : CString) :
      Running env { z with modules := unloadModule z.modules sModule }

/-- a module that can be loaded with some arguments -/
def Env.Loads (env : Env) (line : CString × CString) : Prop :=
  line.1 ≠ [] ∧ validateModuleName line.1 = true ∧ env.loadError line.1 line.2 = none

/-- a module that the first line which names it gives its own arguments is spelled as there, unless another line gives it other
arguments and the first one can be loaded -/
def Spelled (env : Env) (lines : List (CString × CString)) (pMod : CModule) : Prop :=
  ∀ line, lines.find? (fun line => pMod.sModName.equals line.1) = some line → line.2 = pMod.sArgs →
    line.1 = pMod.sModName ∨
      env.Loads line ∧ ∃ other ∈ lines, pMod.sModName.equals other.1 = true ∧ other.2 ≠ pMod.sArgs

/-- a state that a config leaves nothing of -/
structure Forgotten (env : Env) (config : CConfig) (z : CZNC) : Prop where
  /-- a setting whose key is missing has its default -/
  settings : ∀ setting, entryOf config setting = none → Agree setting z (.new env)
  modules : ∀ pMod ∈ z.modules.vMods, Spelled env (modLines config) pMod

/-! ## Lists -/

def motdOf (config : CConfig) : VCString := (config.findStringVector (lit "motd")).1.filter (· ≠ [])

def addProxy (vsTrustedProxies : VCString) (sHost : CString) : VCString :=
  if sHost = [] ∨ vsTrustedProxies.any (·.equals sHost) then vsTrustedProxies else vsTrustedProxies ++ [sHost]

def proxiesOf (config : CConfig) : VCString := (config.findStringVector (lit "trustedproxy")).1.foldl addProxy []

theorem foldl_addMotd (l : VCString) (z : CZNC) :
    l.foldl CZNC.addMotd z = { z with vsMotd := z.vsMotd ++ l.filter (· ≠ []) } := by
  induction l generalizing z with
  | nil => simp
  | cons sMessage l ih =>
    rw [foldl_cons, ih, CZNC.addMotd]
    split_ifs with hnil <;> simp [hnil]

theorem foldl_addTrustedProxy (l : VCString) (z : CZNC) :
    l.foldl CZNC.addTrustedProxy z = { z with vsTrustedProxies := l.foldl addProxy z.vsTrustedProxies } := by
  induction l generalizing z with
  | nil => rfl
  | cons sHost l ih =>
    rw [foldl_cons, ih, CZNC.addTrustedProxy, foldl_cons, addProxy]
    split_ifs <;> rfl

theorem loadLists_eq (config : CConfig) (z : CZNC) :
    CZNC.loadLists config z =
      { z with
        vsMotd := motdOf config
        vsTrustedProxies := proxiesOf config
        ssClientCapBlacklist := .ofList (config.findStringVector (lit "disableclientcap")).1
        ssServerCapBlacklist := .ofList (config.findStringVector (lit "disableservercap")).1 } := by
  simp only [CZNC.loadLists, foldl_addMotd, foldl_addTrustedProxy, nil_append]
  rfl

/-! ## Modules -/

/-- the name and the arguments of a module that is found -/
def held (ms : CModules) (k : CString) : Option (CString × CString) :=
  (ms.findModule k).map fun pMod => (pMod.sModName, pMod.sArgs)

variable {env : Env} {ms : CModules} {k : CString} {config : CConfig} {lines : List (CString × CString)}
  {line : CString × CString} {pMod : CModule} {st : Loading}

theorem held_some (h : held ms k = some line) :
    ∃ pMod ∈ ms.vMods, k.equals pMod.sModName = true ∧ (pMod.sModName, pMod.sArgs) = line := by
  obtain ⟨pMod, hfind, hline⟩ := map_eq_some_iff.1 h
  obtain ⟨hmem, hname⟩ := CModules.findModule_some hfind
  exact ⟨pMod, hmem, hname, hline⟩

theorem held_of_mem {ms : CModules} {k : CString} {pMod : CModule} (h : pMod ∈ ms.vMods)
    (hname : k.equals pMod.sModName = true) : held ms k = some (pMod.sModName, pMod.sArgs) := by
  rw [held, CModules.findModule_eq_some h hname]
  rfl

theorem held_eq_none_iff :
    held ms k = none ↔ ∀ pMod ∈ ms.vMods, ¬k.equals pMod.sModName = true := by
  rw [held, map_eq_none_iff, CModules.findModule, find?_eq_none]

theorem held_congr (ms : CModules) {k' : CString} (h : k.equals k' = true) : held ms k = held ms k' := by
  rw [held, held, CModules.findModule_congr ms h]

theorem mem_iff_held :
    pMod ∈ ms.vMods ↔ held ms pMod.sModName = some (pMod.sModName, pMod.sArgs) := by
  constructor
  · exact fun h => held_of_mem h (equals_refl _)
  · intro h
    obtain ⟨pMod', hmem, -, heq⟩ := held_some h
    obtain ⟨hname, hargs⟩ := Prod.mk.inj heq
    have hsame : pMod' = pMod := by
      cases pMod
      cases pMod'
      simp only at hname hargs
      subst hname hargs
      rfl
    rwa [← hsame]

theorem held_eq_of_mem_iff {ms' : CModules}
    (h : ∀ pMod, k.equals pMod.sModName = true → (pMod ∈ ms.vMods ↔ pMod ∈ ms'.vMods)) : held ms k = held ms' k := by
  cases hheld : held ms' k with
  | none =>
    refine held_eq_none_iff.2 fun pMod hmem hname => ?_
    exact held_eq_none_iff.1 hheld pMod ((h pMod hname).1 hmem) hname
  | some line =>
    obtain ⟨pMod, hmem, hname, rfl⟩ := held_some hheld
    exact held_of_mem ((h pMod hname).2 hmem) hname

theorem mem_unloadModule {sModule : CString} :
    pMod ∈ (unloadModule ms sModule).vMods ↔ pMod ∈ ms.vMods ∧ ¬sModule.equals pMod.sModName = true := by
  refine ms.distinct.mem_eraseP (fun a b ha hb => ?_) pMod
  exact equals_trans ((equals_comm _ _).trans ha) hb

theorem held_unloadModule (ms : CModules) (sModule k : CString) :
    held (unloadModule ms sModule) k = if k.equals sModule then none else held ms k := by
  by_cases hk : k.equals sModule = true
  · rw [if_pos hk, held_eq_none_iff]
    intro pMod hmem hname
    exact (mem_unloadModule.1 hmem).2 (equals_trans ((equals_comm _ _).trans hk) hname)
  · rw [if_neg hk]
    refine held_eq_of_mem_iff fun pMod hname => ?_
    rw [mem_unloadModule]
    refine and_iff_left fun hsame => hk ?_
    exact equals_trans hname ((equals_comm _ _).trans hsame)

theorem loadModule_ok_iff :
    (∃ ms', loadModule env ms line.1 line.2 = .ok ms') ↔ held ms line.1 = none ∧ env.Loads line := by
  have hheld : held ms line.1 = none ↔ ms.findModule line.1 = none := map_eq_none_iff
  rw [loadModule, hheld, Env.Loads]
  by_cases hvalid : validateModuleName line.1 = true
  · rw [dif_pos hvalid]
    by_cases hfind : ms.findModule line.1 = none
    · rw [dif_pos hfind]
      by_cases hne : line.1 = []
      · rw [dif_pos hne]
        exact iff_of_false (fun h => by cases h.choose_spec) fun h => h.2.1 hne
      · rw [dif_neg hne]
        cases herror : env.loadError line.1 line.2 with
        | some sModRet => exact iff_of_false (fun h => by cases h.choose_spec) fun h => by cases h.2.2.2
        | none => exact iff_of_true ⟨_, rfl⟩ ⟨hfind, hne, hvalid, rfl⟩
    · rw [dif_neg hfind]
      exact iff_of_false (fun h => by cases h.choose_spec) fun h => hfind h.1
  · rw [dif_neg hvalid]
    exact iff_of_false (fun h => by cases h.choose_spec) fun h => hvalid h.2.2.1

theorem held_loadModule {ms' : CModules} (h : loadModule env ms line.1 line.2 = .ok ms') (k : CString) :
    held ms' k = if k.equals line.1 then some line else held ms k := by
  obtain ⟨hnone, hne, hvalid, herror⟩ := loadModule_ok_iff.1 ⟨ms', h⟩
  have hfind : ms.findModule line.1 = none := map_eq_none_iff.1 hnone
  have hmods : ms'.vMods = ms.vMods ++ [⟨line.1, line.2, hne, hvalid⟩] := by
    rw [loadModule, dif_pos hvalid, dif_pos hfind, dif_neg hne] at h
    simp only [herror] at h
    obtain rfl := Except.ok.inj h
    rfl
  by_cases hk : k.equals line.1 = true
  · rw [if_pos hk]
    exact held_of_mem (hmods ▸ mem_append_right _ mem_cons_self) hk
  · rw [if_neg hk]
    refine held_eq_of_mem_iff fun pMod hname => ?_
    rw [hmods, mem_append, mem_singleton]
    refine or_iff_left fun heq => hk ?_
    rwa [heq] at hname

/-! ### Lines -/

/-- a line, as it changes what is found under a name -/
def settle (k : CString) (o : Option (CString × CString)) (line : CString × CString) : Option (CString × CString) :=
  if k.equals line.1 then if o.any (·.2 = line.2) then o else some line else o

theorem settle_some (hk : k.equals line.1 = true) (m : CString × CString) :
    settle k (some m) line = if m.2 = line.2 then some m else some line := by
  rw [settle, if_pos hk]
  simp

theorem settle_none (hk : k.equals line.1 = true) :
    settle k none line = some line := by
  rw [settle, if_pos hk]
  rfl

theorem settle_other (hk : ¬k.equals line.1 = true) (o : Option (CString × CString)) :
    settle k o line = o := if_neg hk

theorem settle_congr {k' : CString} (h : k.equals k' = true) : settle k = settle k' := by
  funext o line
  rw [settle, settle, equals_congr h]

/-- **What is found after some lines:** what was found before, as long as they have its arguments. -/
theorem foldl_settle_some (k : CString) (lines : List (CString × CString)) (m : CString × CString) :
    lines.foldl (settle k) (some m) =
      if ∀ line ∈ lines, k.equals line.1 = true → line.2 = m.2 then some m else lines.foldl (settle k) none := by
  induction lines generalizing m with
  | nil => simp
  | cons line lines ih =>
    rw [foldl_cons, foldl_cons]
    by_cases hk : k.equals line.1 = true
    · rw [settle_some hk, settle_none hk]
      by_cases hargs : m.2 = line.2
      · rw [if_pos hargs, ih m, ih line, hargs]
        by_cases hall : ∀ other ∈ lines, k.equals other.1 = true → other.2 = line.2
        · rw [if_pos hall, if_pos (forall_mem_cons.2 ⟨fun _ => rfl, hall⟩)]
        · rw [if_neg hall, if_neg hall, if_neg fun h => hall (forall_mem_cons.1 h).2]
      · rw [if_neg hargs, if_neg fun hall => hargs (hall line mem_cons_self hk).symm]
    · rw [settle_other hk, settle_other hk, ih]
      simp only [forall_mem_cons, hk, false_implies, true_and, Bool.false_eq_true]

theorem foldl_settle_none (hfirst : lines.find? (fun line => k.equals line.1) = some line)
    (hall : ∀ other ∈ lines, k.equals other.1 = true → other.2 = line.2) : lines.foldl (settle k) none = some line := by
  induction lines with
  | nil => cases hfirst
  | cons other lines ih =>
    obtain ⟨hother, hall⟩ := forall_mem_cons.1 hall
    rw [foldl_cons]
    by_cases hk : k.equals other.1 = true
    · simp only [find?_cons, hk] at hfirst
      obtain rfl := some.inj hfirst
      rw [settle_none hk, foldl_settle_some, if_pos hall]
    · simp only [find?_cons, hk] at hfirst
      rw [settle_other hk, ih hfirst hall]

theorem loadLine_ok_iff :
    (∃ st', loadLine env st line = .ok st') ↔
      st.msModules.find line.1 = none ∧
        ((held st.modules line.1).any (·.2 = line.2) = true ∨ env.Loads line) := by
  have hmap {x : Except CString CModules} :
    (∃ st', x.map (fun ms => (⟨ms, st.msModules.insert line.1 line.2⟩ : Loading)) = .ok st') ↔
      ∃ ms, x = .ok ms := by
    cases x with
    | error sError => exact iff_of_false (fun h => by cases h.choose_spec) fun h => by cases h.choose_spec
    | ok ms => exact iff_of_true ⟨_, rfl⟩ ⟨ms, rfl⟩
  rw [loadLine]
  cases hthere : st.msModules.find line.1 with
  | some sArgs => exact iff_of_false (fun h => by cases h.choose_spec) fun h => by cases h.1
  | none =>
    rw [if_neg (by simp), hmap]
    refine Iff.trans ?_ (and_iff_right rfl).symm
    cases hfind : st.modules.findModule line.1 with
    | none =>
      have hheld : held st.modules line.1 = none := by rw [held, hfind]; rfl
      dsimp only
      rw [loadModule_ok_iff, hheld]
      simp
    | some pOldMod =>
      have hheld : held st.modules line.1 = some (pOldMod.sModName, pOldMod.sArgs) := by rw [held, hfind]; rfl
      dsimp only
      rw [hheld]
      by_cases hargs : pOldMod.sArgs = line.2
      · rw [if_neg (not_not.2 hargs)]
        exact iff_of_true ⟨_, rfl⟩ (.inl (by simpa using hargs))
      · rw [if_pos hargs, reloadModule, loadModule_ok_iff, held_unloadModule, if_pos (equals_refl _)]
        simp [hargs]

variable {st' : Loading}

theorem loadLine_spec (h : loadLine env st line = .ok st') :
    (∀ k, held st'.modules k = settle k (held st.modules k) line) ∧
      st'.msModules = st.msModules.insert line.1 line.2 := by
  rw [loadLine] at h
  split_ifs at h with hthere
  cases hfind : st.modules.findModule line.1 with
  | none =>
    have hheld : held st.modules line.1 = none := by rw [held, hfind]; rfl
    rw [hfind] at h
    dsimp only at h
    cases hload : loadModule env st.modules line.1 line.2 with
    | error sError =>
      rw [hload] at h
      cases h
    | ok ms =>
      rw [hload] at h
      obtain rfl := Except.ok.inj h
      refine ⟨fun k => ?_, rfl⟩
      rw [held_loadModule hload]
      split_ifs with hk
      · rw [held_congr _ hk, hheld, settle_none hk]
      · rw [settle_other hk]
  | some pOldMod =>
    have hheld : held st.modules line.1 = some (pOldMod.sModName, pOldMod.sArgs) := by rw [held, hfind]; rfl
    rw [hfind] at h
    dsimp only at h
    by_cases hargs : pOldMod.sArgs = line.2
    · rw [if_neg (not_not.2 hargs)] at h
      obtain rfl := Except.ok.inj h
      refine ⟨fun k => ?_, rfl⟩
      by_cases hk : k.equals line.1 = true
      · rw [held_congr _ hk, hheld, settle_some hk, if_pos hargs]
      · rw [settle_other hk]
    · rw [if_pos hargs, reloadModule] at h
      cases hload : loadModule env (unloadModule st.modules line.1) line.1 line.2 with
      | error sError =>
        rw [hload] at h
        cases h
      | ok ms =>
        rw [hload] at h
        obtain rfl := Except.ok.inj h
        refine ⟨fun k => ?_, rfl⟩
        rw [held_loadModule hload, held_unloadModule]
        split_ifs with hk
        · rw [held_congr _ hk, hheld, settle_some hk, if_neg hargs]
        · rw [settle_other hk]

theorem foldlM_cons_ok (h : (line :: lines).foldlM (loadLine env) st = .ok st') :
    ∃ t, loadLine env st line = .ok t ∧ lines.foldlM (loadLine env) t = .ok st' := by
  rw [foldlM_cons] at h
  cases hline : loadLine env st line with
  | error sError =>
    rw [hline] at h
    cases h
  | ok t =>
    rw [hline] at h
    exact ⟨t, rfl, h⟩

/-- **All lines.** -/
theorem foldlM_loadLine_spec (h : lines.foldlM (loadLine env) st = .ok st') :
    (∀ k, held st'.modules k = lines.foldl (settle k) (held st.modules k)) ∧
      ∀ n, (st'.msModules.find n).isSome ↔ n ∈ lines.map Prod.fst ∨ (st.msModules.find n).isSome := by
  induction lines generalizing st with
  | nil =>
    obtain rfl := Except.ok.inj h
    exact ⟨fun _ => rfl, fun n => by simp⟩
  | cons line lines ih =>
    obtain ⟨t, ht, hrest⟩ := foldlM_cons_ok h
    obtain ⟨hheld, hms⟩ := loadLine_spec ht
    obtain ⟨hheld', hms'⟩ := ih hrest
    refine ⟨fun k => ?_, fun n => ?_⟩
    · rw [hheld', hheld, foldl_cons]
    · rw [hms', hms, OrdMap.find_insert, map_cons, mem_cons]
      by_cases hn : n = line.1
      · simp [hn]
      · simp [hn]

theorem settle_args (hk : k.equals line.1 = true) (o : Option (CString × CString)) :
    (settle k o line).map Prod.snd = some line.2 := by
  cases o with
  | none => rw [settle_none hk]; rfl
  | some m =>
    rw [settle_some hk]
    split_ifs with hargs
    · rw [map_some, hargs]
    · rfl

theorem any_snd (o : Option (CString × CString)) (s : CString) : o.any (·.2 = s) = (o.map Prod.snd).any (· = s) := by
  cases o <;> rfl

/-- what two states have under a name has the same arguments, or the first line that counts can be loaded if it is already there -/
def Level (env : Env) (st st₀ : Loading) (lines : List (CString × CString)) (k : CString) : Prop :=
  (held st₀.modules k).map Prod.snd = (held st.modules k).map Prod.snd ∨
    ∀ line, lines.find? (fun line => k.equals line.1) = some line →
      (held st.modules k).any (·.2 = line.2) = true → env.Loads line

theorem foldlM_loadLine_ok {env : Env} {lines : List (CString × CString)} {st : Loading}
    (h : lines.foldlM (loadLine env) st = .ok st') {st₀ : Loading} (hms : st₀.msModules = st.msModules)
    (hlevel : ∀ k, Level env st st₀ lines k) : ∃ st₀', lines.foldlM (loadLine env) st₀ = .ok st₀' := by
  induction lines generalizing st st₀ with
  | nil => exact ⟨st₀, rfl⟩
  | cons line lines ih =>
    obtain ⟨t, ht, hrest⟩ := foldlM_cons_ok h
    obtain ⟨hnew, hneed⟩ := loadLine_ok_iff.1 ⟨t, ht⟩
    have hneed₀ : (held st₀.modules line.1).any (·.2 = line.2) = true ∨ env.Loads line := by
      rcases hneed with hargs | hloads
      · rcases hlevel line.1 with hsame | hfirst
        · left
          rw [any_snd, hsame, ← any_snd]
          exact hargs
        · exact .inr (hfirst line (by simp) hargs)
      · exact .inr hloads
    obtain ⟨t₀, ht₀⟩ := loadLine_ok_iff.2 ⟨hms ▸ hnew, hneed₀⟩
    obtain ⟨hheld, hinsert⟩ := loadLine_spec ht
    obtain ⟨hheld₀, hinsert₀⟩ := loadLine_spec ht₀
    have hlevel' (k : CString) : Level env t t₀ lines k := by
      rw [Level, hheld, hheld₀]
      by_cases hk : k.equals line.1 = true
      · rw [settle_args hk, settle_args hk]
        exact .inl rfl
      · rw [settle_other hk, settle_other hk]
        rcases hlevel k with hsame | hfirst
        · exact .inl hsame
        · refine .inr fun other hother => hfirst other ?_
          simpa only [find?_cons, hk] using hother
    obtain ⟨st₀', hst₀'⟩ := ih hrest (by rw [hinsert₀, hinsert, hms]) hlevel'
    refine ⟨st₀', ?_⟩
    rw [foldlM_cons, ht₀]
    exact hst₀'

theorem loads_of_ok (h : lines.foldlM (loadLine env) st = .ok st') (hnone : held st.modules k = none)
    (hfirst : lines.find? (fun line => k.equals line.1) = some line) : env.Loads line := by
  induction lines generalizing st with
  | nil => cases hfirst
  | cons other lines ih =>
    obtain ⟨t, ht, hrest⟩ := foldlM_cons_ok h
    by_cases hk : k.equals other.1 = true
    · simp only [find?_cons, hk] at hfirst
      obtain rfl := some.inj hfirst
      have hneed := (loadLine_ok_iff.1 ⟨t, ht⟩).2
      rw [← held_congr _ hk, hnone] at hneed
      exact hneed.resolve_left (by simp)
    · simp only [find?_cons, hk] at hfirst
      refine ih hrest ?_ hfirst
      rw [(loadLine_spec ht).1, settle_other hk, hnone]

/-! ### All modules -/

theorem mem_foldl_unloadModule (names : VCString) :
    pMod ∈ (names.foldl unloadModule ms).vMods ↔
      pMod ∈ ms.vMods ∧ ∀ sModule ∈ names, ¬sModule.equals pMod.sModName = true := by
  induction names generalizing ms with
  | nil => simp
  | cons sModule names ih => rw [foldl_cons, ih, mem_unloadModule, forall_mem_cons, and_assoc]

theorem mem_unloadRemovedModules {msModules : MCString} :
    pMod ∈ (unloadRemovedModules msModules ms).vMods ↔ pMod ∈ ms.vMods ∧ (msModules.find pMod.sModName).isSome := by
  rw [unloadRemovedModules, mem_foldl_unloadModule]
  refine and_congr_right fun hmem => ?_
  constructor
  · intro hall
    by_contra hnone
    refine hall pMod.sModName ?_ (equals_refl _)
    rw [OrdSet.mem_toList, OrdSet.mem_ofList]
    exact mem_map.2 ⟨pMod, mem_filter.2 ⟨hmem, by simpa using hnone⟩, rfl⟩
  · intro hsome sModule hsModule hname
    rw [OrdSet.mem_toList, OrdSet.mem_ofList] at hsModule
    obtain ⟨pCurMod, hcur, rfl⟩ := mem_map.1 hsModule
    obtain ⟨hcur, hnone⟩ := mem_filter.1 hcur
    obtain rfl := ms.distinct.eq_of_rel NetworkClone.sameMod_symm hcur hmem hname
    rw [isNone_iff_eq_none.1 hnone] at hsome
    cases hsome

theorem mem_loaded (h : loadLines env lines ms = .ok st) :
    pMod ∈ (unloadRemovedModules st.msModules st.modules).vMods ↔
      lines.foldl (settle pMod.sModName) (held ms pMod.sModName) = some (pMod.sModName, pMod.sArgs) ∧
        pMod.sModName ∈ lines.map Prod.fst := by
  obtain ⟨hheld, hms⟩ := foldlM_loadLine_spec h
  rw [mem_unloadRemovedModules, mem_iff_held, hheld, hms]
  simp

theorem modules_iff {st₀ : Loading} (h : loadLines env lines ms = .ok st) (h₀ : loadLines env lines .empty = .ok st₀) :
    (∀ pMod, pMod ∈ (unloadRemovedModules st.msModules st.modules).vMods ↔
        pMod ∈ (unloadRemovedModules st₀.msModules st₀.modules).vMods) ↔
      ∀ pMod ∈ ms.vMods, Spelled env lines pMod := by
  have hnone (k : CString) : held .empty k = none := rfl
  simp only [mem_loaded h, mem_loaded h₀, hnone]
  constructor
  · intro hsame pMod hmem line hfirst hargs
    by_cases hall : ∀ other ∈ lines, pMod.sModName.equals other.1 = true → other.2 = pMod.sArgs
    · -- the module stays, and the one of a fresh process is spelled as in the line
      left
      have hname : pMod.sModName.equals line.1 = true := by simpa using find?_some hfirst
      have hold : lines.foldl (settle pMod.sModName) (held ms pMod.sModName) = some (pMod.sModName, pMod.sArgs) := by
        rw [held_of_mem hmem (equals_refl _), foldl_settle_some, if_pos hall]
      have hfresh : lines.foldl (settle pMod.sModName) none = some line :=
        foldl_settle_none hfirst fun other hother heq => (hall other hother heq).trans hargs.symm
      obtain ⟨hne, hvalid, -⟩ := loads_of_ok h₀ (hnone pMod.sModName) hfirst
      have hsettle : settle line.1 = settle pMod.sModName := settle_congr ((equals_comm _ _).trans hname)
      have hmod := (hsame ⟨line.1, line.2, hne, hvalid⟩).2
        ⟨by rw [hsettle, hfresh], mem_map_of_mem (mem_of_find?_eq_some hfirst)⟩
      dsimp only at hmod
      rw [hsettle, ← held_congr ms hname, hold] at hmod
      exact (Prod.mk.inj (some.inj hmod.1)).1.symm
    · right
      refine ⟨loads_of_ok h₀ (hnone _) hfirst, ?_⟩
      simpa using hall
  · intro hspelled pMod
    refine and_congr_left fun hmem => ?_
    have hfold : lines.foldl (settle pMod.sModName) (held ms pMod.sModName) =
      lines.foldl (settle pMod.sModName) none := by
      cases hheld : held ms pMod.sModName with
      | none => rfl
      | some m =>
        obtain ⟨pOldMod, hold, hname, rfl⟩ := held_some hheld
        rw [foldl_settle_some]
        split_ifs with hall
        · obtain ⟨line, hline, heq⟩ := mem_map.1 hmem
          obtain ⟨first, hfirst⟩ : ∃ first, lines.find? (fun line => pMod.sModName.equals line.1) = some first := by
            rw [← isSome_iff_exists, find?_isSome]
            exact ⟨line, hline, by rw [heq]; exact equals_refl _⟩
          have hargs : first.2 = pOldMod.sArgs :=
            hall first (mem_of_find?_eq_some hfirst) (by simpa using find?_some hfirst)
          have hcongr : (fun line : CString × CString => pOldMod.sModName.equals line.1) =
              fun line => pMod.sModName.equals line.1 := by
            funext line
            exact (equals_congr hname _).symm
          rcases hspelled pOldMod hold first (by rw [hcongr]; exact hfirst) hargs with heq |
            ⟨-, other, hother, hother', hne⟩
          · rw [foldl_settle_none hfirst fun other hother heq => (hall other hother heq).trans hargs.symm]
            exact congrArg some (Prod.ext heq hargs).symm
          · exact absurd (hall other hother ((equals_congr hname _).trans hother')) hne
        · rfl
    rw [hfold]

/-! ## The rehash -/

/-- the state in which the settings are read -/
def listed (config : CConfig) (z : CZNC) (st : Loading) : CZNC := CZNC.loadLists config { z with modules := st.modules }

/-- the state in which the listeners are opened -/
def bare (t : CZNC) (st : Loading) : CZNC :=
  { t with modules := unloadRemovedModules st.msModules t.modules, vpListeners := [] }

theorem loadGlobal_ok_iff {z r : CZNC} :
    z.loadGlobal env config = .ok r ↔
      ∃ st t, loadLines env (modLines config) z.modules = .ok st ∧
        loadSettings env config (listed config z st) = .ok t ∧
        openAll env config (bare t st) = .ok r ∧ r.vpListeners ≠ [] := by
  rw [CZNC.loadGlobal]
  cases hlines : loadLines env (modLines config) z.modules with
  | error sError => exact iff_of_false (fun h => by cases h) fun ⟨st, t, h, _⟩ => by cases h
  | ok st =>
    simp only [bind, Except.bind]
    cases hsettings : loadSettings env config (CZNC.loadLists config { z with modules := st.modules }) with
    | error sError =>
      refine iff_of_false (fun h => by cases h) ?_
      rintro ⟨st', t, h, h', -⟩
      obtain rfl := Except.ok.inj h
      rw [listed, hsettings] at h'
      cases h'
    | ok t =>
      dsimp only
      rw [loadListeners_eq]
      have hbare : ({ t with modules := unloadRemovedModules st.msModules t.modules,
                             vpListeners := [] } : CZNC) = bare t st := rfl
      dsimp only
      rw [hbare]
      constructor
      · intro h
        obtain ⟨r', hopen, hr⟩ := Assignments.bind_ok h
        split_ifs at hr with hnil
        obtain rfl := Except.ok.inj hr
        exact ⟨st, t, rfl, hsettings, hopen, hnil⟩
      · rintro ⟨st', t', h, h', hopen, hne⟩
        obtain rfl := Except.ok.inj h
        rw [listed, hsettings] at h'
        obtain rfl := Except.ok.inj h'
        rw [hopen, Except.bind, if_neg hne]

theorem loadGlobal_result {z t r : CZNC} (hsettings : loadSettings env config (listed config z st) = .ok t)
    (hopen : openAll env config (bare t st) = .ok r) :
    (∀ setting, Agree setting r t) ∧ r.vsMotd = motdOf config ∧ r.vsTrustedProxies = proxiesOf config ∧
      r.ssClientCapBlacklist = .ofList (config.findStringVector (lit "disableclientcap")).1 ∧
      r.ssServerCapBlacklist = .ofList (config.findStringVector (lit "disableservercap")).1 ∧
      r.modules = unloadRemovedModules st.msModules st.modules := by
  have hframe := (opens_all env config).frame hopen
  have hrest := loadSettings_rest hsettings
  rw [listed, loadLists_eq] at hrest
  rw [hframe]
  refine ⟨fun setting => ?_, hrest.motd, hrest.proxies, hrest.clientCaps, hrest.serverCaps, ?_⟩
  · cases setting with
    | string setting => exact ⟨rfl, fun _ => rfl⟩
    | uint setting => exact rfl
    | bool setting => exact rfl
  · have hmods : t.modules = st.modules := hrest.modules
    rw [← hmods]
    rfl

theorem agree_listed (setting : Setting) (config : CConfig) (z : CZNC) (st : Loading) :
    Agree setting (listed config z st) z := by
  rw [listed, loadLists_eq]
  cases setting with
  | string setting => exact ⟨rfl, fun _ => rfl⟩
  | uint setting => exact rfl
  | bool setting => exact rfl

/-- **The settings after two loads** of the same config. -/
theorem settings_iff {env : Env} {config : CConfig} {z z₀ t t₀ : CZNC} {st st₀ : Loading}
    (h : loadSettings env config (listed config z st) = .ok t)
    (h₀ : loadSettings env config (listed config z₀ st₀) = .ok t₀)
    (setting : Setting) : Agree setting t t₀ ↔ (entryOf config setting = none → Agree setting z z₀) := by
  have hequiv := agree_equivalence setting
  have hold := agree_listed setting config z st
  have hold₀ := agree_listed setting config z₀ st₀
  rw [(assign_lawful env).agree_iff nodup_settings h h₀ (mem_settings setting)]
  refine imp_congr_right fun _ => ⟨fun hagree => ?_, fun hagree => ?_⟩
  · exact hequiv.trans (hequiv.symm hold) (hequiv.trans hagree hold₀)
  · exact hequiv.trans hold (hequiv.trans hagree (hequiv.symm hold₀))

/-- the modules could all be loaded -/
def AllLoad (env : Env) (ms : CModules) : Prop := ∀ pMod ∈ ms.vMods, env.loadError pMod.sModName pMod.sArgs = none

theorem AllLoad.loadModule {ms' : CModules} (h : AllLoad env ms) {sModule sArgs : CString}
    (hload : loadModule env ms sModule sArgs = .ok ms') : AllLoad env ms' := by
  intro pMod hmem
  rw [mem_iff_held, @held_loadModule env ms (sModule, sArgs) ms' hload] at hmem
  split_ifs at hmem with hname
  · obtain ⟨rfl, rfl⟩ := Prod.mk.inj (some.inj hmem)
    exact ((@loadModule_ok_iff env ms (pMod.sModName, pMod.sArgs)).1 ⟨ms', hload⟩).2.2.2
  · exact h pMod (mem_iff_held.2 hmem)

theorem AllLoad.loadLine {env : Env} {st : Loading} (h : AllLoad env st.modules) {line : CString × CString}
    (hline : loadLine env st line = .ok st') : AllLoad env st'.modules := by
  intro pMod hmem
  rw [mem_iff_held, (loadLine_spec hline).1, settle] at hmem
  split_ifs at hmem with hname hargs
  · exact h pMod (mem_iff_held.2 hmem)
  · obtain rfl := some.inj hmem
    rw [held_congr _ hname] at hargs
    exact ((loadLine_ok_iff.1 ⟨st', hline⟩).2.resolve_left hargs).2.2
  · exact h pMod (mem_iff_held.2 hmem)

theorem AllLoad.loadLines {st' : Loading} (h : AllLoad env st.modules)
    (hlines : lines.foldlM (Global.loadLine env) st = .ok st') : AllLoad env st'.modules := by
  induction lines generalizing st with
  | nil =>
    obtain rfl := Except.ok.inj hlines
    exact h
  | cons line lines ih =>
    obtain ⟨t, ht, hrest⟩ := foldlM_cons_ok hlines
    exact ih (h.loadLine ht) hrest

theorem AllLoad.rehash {sFile : CString} {z r : CZNC} (h : AllLoad env z.modules)
    (hr : z.rehashConfig env sFile = .ok r) : AllLoad env r.modules := by
  rw [CZNC.rehashConfig] at hr
  cases hread : readConfig sFile with
  | error sError =>
    rw [hread] at hr
    cases hr
  | ok config =>
    rw [hread] at hr
    obtain ⟨st, t, hlines, hsettings, hopen, -⟩ := loadGlobal_ok_iff.1 hr
    obtain ⟨-, -, -, -, -, hmods⟩ := loadGlobal_result hsettings hopen
    intro pMod hmem
    rw [hmods] at hmem
    exact @AllLoad.loadLines env _ ⟨z.modules, .empty⟩ st h hlines pMod (mem_unloadRemovedModules.1 hmem).1

/-- **The modules of a running process** could all be loaded. -/
theorem Running.allLoad {z : CZNC} (h : Running env z) : AllLoad env z.modules := by
  induction h with
  | start => exact fun pMod hmem => nomatch hmem
  | rehash _ hr ih => exact ih.rehash hr
  | set _ hmods ih => rwa [hmods]
  | load _ hload ih => exact ih.loadModule hload
  | unload _ sModule ih => exact fun pMod hmem => ih pMod (mem_unloadModule.1 hmem).1

theorem loadLines_fresh (h : loadLines env lines ms = .ok st) (hall : AllLoad env ms)
    (hspelled : ∀ pMod ∈ ms.vMods, Spelled env lines pMod) :
    ∃ st₀, loadLines env lines .empty = .ok st₀ := by
  refine foldlM_loadLine_ok h rfl fun k => ?_
  cases hheld : held ms k with
  | none =>
    left
    dsimp only
    rw [hheld]
    rfl
  | some m =>
    refine .inr fun line hfirst hargs => ?_
    obtain ⟨pMod, hmem, hname, rfl⟩ := held_some hheld
    dsimp only at hargs
    rw [hheld] at hargs
    have hcongr : (fun line : CString × CString => pMod.sModName.equals line.1) = fun line => k.equals line.1 := by
      funext line
      exact (equals_congr hname _).symm
    have hargs : pMod.sArgs = line.2 := by simpa using hargs
    rcases hspelled pMod hmem line (by rw [hcongr]; exact hfirst) hargs.symm with heq | ⟨hloads, -⟩
    · rw [Env.Loads, heq, ← hargs]
      exact ⟨pMod.ne, pMod.valid, hall pMod hmem⟩
    · exact hloads

/-- **A config that is loaded** leaves what it leaves in a fresh process exactly if nothing of the state before is left. -/
theorem loadGlobal_fresh_iff {z r : CZNC} (hall : AllLoad env z.modules) (h : z.loadGlobal env config = .ok r) :
    (∃ f, (CZNC.new env).loadGlobal env config = .ok f ∧ SameGlobal r f) ↔ Forgotten env config z := by
  obtain ⟨st, t, hlines, hsettings, hopen, hne⟩ := loadGlobal_ok_iff.1 h
  obtain ⟨hagree, hmotd, hproxies, hclient, hserver, hmods⟩ := loadGlobal_result hsettings hopen
  constructor
  · rintro ⟨f, hf, hsame⟩
    obtain ⟨st₀, t₀, hlines₀, hsettings₀, hopen₀, -⟩ := loadGlobal_ok_iff.1 hf
    obtain ⟨hagree₀, -, -, -, -, hmods₀⟩ := loadGlobal_result hsettings₀ hopen₀
    refine ⟨fun setting => ?_, ?_⟩
    · have hequiv := agree_equivalence setting
      have hboth : Agree setting t t₀ :=
        hequiv.trans (hequiv.symm (hagree setting)) (hequiv.trans (hsame.settings setting) (hagree₀ setting))
      exact (settings_iff hsettings hsettings₀ setting).1 hboth
    · have hmods' := hsame.modules
      rw [hmods, hmods₀] at hmods'
      exact (modules_iff hlines hlines₀).1 hmods'
  · intro hforgotten
    obtain ⟨st₀, hlines₀⟩ := loadLines_fresh hlines hall hforgotten.modules
    obtain ⟨t₀, hsettings₀⟩ : ∃ t₀, loadSettings env config (listed config (.new env) st₀) = .ok t₀ :=
      ((assign_lawful env).assignAll_ok_iff settings _).2
        (((assign_lawful env).assignAll_ok_iff settings _).1 ⟨t, hsettings⟩)
    have hboth (setting : Setting) : Agree setting t t₀ :=
      (settings_iff hsettings hsettings₀ setting).2 (hforgotten.settings setting)
    obtain ⟨f, hopen₀⟩ := (opens_all env config).cert (bare t₀ st₀) hopen rfl (hboth (.string .sslCertFile)).1
    have hlisteners := (opens_all env config).same hopen hopen₀ rfl
    obtain ⟨hagree₀, hmotd₀, hproxies₀, hclient₀, hserver₀, hmods₀⟩ := loadGlobal_result hsettings₀ hopen₀
    refine ⟨f, loadGlobal_ok_iff.2 ⟨st₀, t₀, hlines₀, hsettings₀, hopen₀, hlisteners ▸ hne⟩, ?_⟩
    refine ⟨fun setting => ?_, hmotd.trans hmotd₀.symm, hproxies.trans hproxies₀.symm, hclient.trans hclient₀.symm,
      hserver.trans hserver₀.symm, ?_, hlisteners⟩
    · have hequiv := agree_equivalence setting
      exact hequiv.trans (hagree setting) (hequiv.trans (hboth setting) (hequiv.symm (hagree₀ setting)))
    · rw [hmods, hmods₀]
      exact (modules_iff hlines hlines₀).2 hforgotten.modules

/-- **A rehash depends only on the file, and leaves what a fresh process gets from it,** exactly if in both states each setting
without a line has its default, and each module that the file names is spelled as in the file. -/
theorem rehash_iff {env : Env} {sFile : CString} {z z' r r' : CZNC} (hz : Running env z) (hz' : Running env z')
    (hr : z.rehashConfig env sFile = .ok r) (hr' : z'.rehashConfig env sFile = .ok r') :
    (SameGlobal r r' ∧ ∃ f, (CZNC.new env).rehashConfig env sFile = .ok f ∧ SameGlobal r f) ↔
      ∃ config, readConfig sFile = .ok config ∧ Forgotten env config z ∧ Forgotten env config z' := by
  simp only [CZNC.rehashConfig] at hr hr' ⊢
  cases hread : readConfig sFile with
  | error sError =>
    rw [hread] at hr
    cases hr
  | ok config =>
    rw [hread] at hr hr'
    have hfresh := loadGlobal_fresh_iff hz.allLoad hr
    have hfresh' := loadGlobal_fresh_iff hz'.allLoad hr'
    simp only [Except.ok.injEq, exists_eq_left']
    constructor
    · rintro ⟨hsame, f, hf, hsame'⟩
      exact ⟨hfresh.1 ⟨f, hf, hsame'⟩, hfresh'.1 ⟨f, hf, hsame.symm.trans hsame'⟩⟩
    · rintro ⟨hz, hz'⟩
      obtain ⟨f, hf, hsame⟩ := hfresh.2 hz
      obtain ⟨f', hf', hsame'⟩ := hfresh'.2 hz'
      obtain rfl := Except.ok.inj (hf.symm.trans hf')
      exact ⟨hsame.trans hsame'.symm, f, hf, hsame⟩

/-- every file is there, every module is loaded, and every socket listens -/
def sampleEnv : Env where
  bLibSSL := true
  bIPv6 := true
  sHomePath := lit "/home/znc"
  sZNCPath := lit "/home/znc/.znc"
  pemFile _ := true
  edpSSL := 3
  edp
    | .SSLv2 => 1
    | .SSLv3 => 2
    | .TLSv1 => 4
    | .TLSv1_1 => 8
    | .TLSv1_2 => 16
  loadError _ _ := none
  listenError _ _ := none

/-- a file with one listener and some lines -/
def sampleFile (sLines : CString) : CString :=
  lit "Version = 1.11.x\n" ++ sLines ++ lit "<Listener l>\nPort = 6697\n</Listener>\n"

/-- a process whose skin was changed -/
def darkState : CZNC := (CZNC.new sampleEnv).putString .skinName (lit "dark")

theorem running_dark : Running sampleEnv darkState := Running.set .start rfl

/-- the skin after a rehash -/
def skinOf : Except CString CZNC → Option CString
  | .ok z => some (z.strings .skinName)
  | .error _ => none

theorem skinOf_some {x : Except CString CZNC} {s : CString} (h : skinOf x = some s) :
    ∃ z, x = .ok z ∧ z.strings .skinName = s := by
  cases x with
  | error sError => cases h
  | ok z => exact ⟨z, rfl, some.inj h⟩

/-- **A skin whose line was removed** stays. -/
theorem keeps_skin : Running sampleEnv darkState ∧ ∃ r f,
    darkState.rehashConfig sampleEnv (sampleFile []) = .ok r ∧
      (CZNC.new sampleEnv).rehashConfig sampleEnv (sampleFile []) = .ok f ∧ r.strings .skinName = lit "dark" ∧
        ¬SameGlobal r f := by
  have hdark : skinOf (darkState.rehashConfig sampleEnv (sampleFile [])) = some (lit "dark") := by decide
  have hfresh : skinOf ((CZNC.new sampleEnv).rehashConfig sampleEnv (sampleFile [])) = some [] := by decide
  obtain ⟨r, hr, hskin⟩ := skinOf_some hdark
  obtain ⟨f, hf, hnone⟩ := skinOf_some hfresh
  refine ⟨running_dark, r, f, hr, hf, hskin, fun hsame => ?_⟩
  have hskins := (hsame.settings (.string .skinName)).1
  rw [hskin, hnone] at hskins
  cases hskins

/-- the skin is in the file, and all the rest is as at the start -/
theorem rehash_skin : ∃ r r', darkState.rehashConfig sampleEnv (sampleFile (lit "Skin = plain\n")) = .ok r ∧
    (CZNC.new sampleEnv).rehashConfig sampleEnv (sampleFile (lit "Skin = plain\n")) = .ok r' ∧ SameGlobal r r' := by
  have hdark : skinOf (darkState.rehashConfig sampleEnv (sampleFile (lit "Skin = plain\n"))) =
    some (lit "plain") := by decide
  have hfresh : skinOf ((CZNC.new sampleEnv).rehashConfig sampleEnv (sampleFile (lit "Skin = plain\n"))) =
      some (lit "plain") := by decide
  obtain ⟨r, hr, -⟩ := skinOf_some hdark
  obtain ⟨r', hr', -⟩ := skinOf_some hfresh
  obtain ⟨config, hread⟩ : ∃ config, readConfig (sampleFile (lit "Skin = plain\n")) = .ok config ∧
      (entryOf config (.string .skinName)).isSome = true := by
    refine ⟨_, rfl, ?_⟩
    decide
  refine ⟨r, r', hr, hr', ((rehash_iff running_dark .start hr hr').2 ⟨config, hread.1,
    ⟨fun setting hnone => ?_, ?_⟩, ?_⟩).1⟩
  · cases setting with
    | string setting =>
      by_cases hskin : setting = .skinName
      · rw [hskin] at hnone
        rw [hnone] at hread
        cases hread.2
      · exact ⟨Function.update_of_ne hskin _ _, fun _ => rfl⟩
    | uint setting => exact rfl
    | bool setting => exact rfl
  · exact fun pMod hmem => nomatch hmem
  · exact ⟨fun setting _ => (agree_equivalence setting).refl _, fun pMod hmem => nomatch hmem⟩

end ZNC.Global
