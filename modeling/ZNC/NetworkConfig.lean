/-
The configuration of a network: `ToConfig` of `src/IRCNetwork.cpp` and of `src/Chan.cpp`.

A network has some settings of its own or else those of its user, and a channel a buffer size and an `AutoClearChanBuffer`
of its own or else those of the user. What a network or a channel does not have of its own is left out of the config.

Model: the settings that a network shares with its user are one table. `Env` is what is not in these files: the converters of
ICU, the text of a `double`, and what the global modules and the code of a module make of loading and unloading it.

Results:
- `addTable_eq_iff`: two tables give the same config if they have the same values, but for empty ones;
- `toConfig_eq_iff`: when two networks have the same config.
-/
import ZNC.ChanList
import ZNC.Config
import ZNC.ServerList

namespace ZNC.NetworkClone

open CString Config List

/-! ## Model -/

/-- the strings that a network takes from its user if it has none of its own -/
inductive Setting where
  | nick
  | altNick
  | ident
  | realName
  | bindHost
  | quitMsg
deriving DecidableEq

structure CUser where
  sCleanUserName : CString
  settings : Setting → CString
  uChanBufferSize : UInt32
  bAutoClearChanBuffer : Bool

/-- `GetNick()`, `GetAltNick()`, `GetIdent()`, `GetRealName()`, `GetBindHost()` and `GetQuitMsg()` of `CUser` -/
def CUser.get (user : CUser) (setting : Setting) : CString :=
  let s := user.settings setting
  match setting with
  | .nick | .altNick | .ident => if s = [] then user.sCleanUserName else s
  | .realName => if trim s ≠ [] then s else lit "ZNC - https://znc.in"
  | .bindHost => s
  | .quitMsg => if trim s ≠ [] then s else lit "%znc%"

structure CChan where
  sName : CString
  sKey : CString
  sDefaultModes : CString
  bInConfig : Bool
  bDetached : Bool
  bDisabled : Bool
  bHasBufferCountSet : Bool
  uBufferCount : UInt32
  bHasAutoClearChanBufferSet : Bool
  bAutoClearChanBuffer : Bool
deriving DecidableEq

def validateModuleName (sModule : CString) : Bool := sModule.all fun c => isalnum c || c = ch '_'

structure CModule where
  sModName : CString
  sArgs : CString
  ne : sModName ≠ []
  valid : validateModuleName sModName = true

def SameMod (m m' : CModule) : Prop := m.sModName.equals m'.sModName = true

structure CModules where
  vMods : List CModule
  distinct : Distinct SameMod vMods

/-- `CIRCNetwork`, with the STATUSMSG of its socket -/
structure CIRCNetwork where
  user : CUser
  settings : Setting → CString
  sEncoding : CString
  bIRCConnectEnabled : Bool
  bTrustAllCerts : Bool
  bTrustPKI : Bool
  /-- the bits of the `double` -/
  fFloodRate : UInt64
  uFloodBurst : UInt16
  uJoinDelay : UInt16
  ssTrustedFingerprints : SCString
  servers : ServerList
  named : ∀ pServer ∈ servers.vServers, pServer.sName ≠ []
  modules : CModules
  vChans : List CChan
  sStatusMsg : CString
  sChanPrefixes : CString

/-- what the network and the modules are run in -/
structure Env where
  /-- `m_uiForceEncoding` -/
  bForceEncoding : Bool
  ucnv_open : CString → Bool
  /-- `CString(double)` -/
  floatText : UInt64 → CString
  /-- loading a module with some arguments: the arguments that it has then -/
  loadModule : CString → CString → Option CString
  unloadModule : CModule → Bool

/-- `CString(bool)` -/
def boolText (b : Bool) : CString := if b then lit "true" else lit "false"

/-- `CString(unsigned int)` -/
def uintText (u : ℕ) : CString := lit (toString u)

def getString (pServer : CServer) (bIncludePassword : Bool) : CString :=
  (if pServer.bUnixSocket then lit "unix:" ++ (if pServer.bSSL then lit "ssl:" else []) ++ pServer.sName
    else pServer.sName ++ lit " " ++ (if pServer.bSSL then lit "+" else []) ++ uintText pServer.uPort.toNat) ++
    if bIncludePassword ∧ pServer.sPass ≠ [] then lit " " ++ pServer.sPass else []

/-- what `ToConfig` writes for a module -/
def CModule.line (pMod : CModule) : CString := pMod.sModName ++ if pMod.sArgs = [] then [] else lit " " ++ pMod.sArgs

/-- `AddKeyValuePair` for each value of each key; it leaves out the empty values -/
def addTable (table : List (CString × VCString)) (c : CConfig) : CConfig :=
  table.foldl (fun c e => e.2.foldl (fun c sValue => c.addKeyValuePair e.1 sValue) c) c

def CChan.table (chan : CChan) : List (CString × VCString) :=
  [(lit "Buffer", if chan.bHasBufferCountSet then [uintText chan.uBufferCount.toNat] else []),
    (lit "AutoClearChanBuffer", if chan.bHasAutoClearChanBufferSet then [boolText chan.bAutoClearChanBuffer] else []),
    (lit "Detached", if chan.bDetached then [lit "true"] else []),
    (lit "Disabled", if chan.bDisabled then [lit "true"] else []),
    (lit "Key", [chan.sKey]),
    (lit "Modes", [chan.sDefaultModes])]

def CChan.toConfig (chan : CChan) : CConfig := addTable chan.table .empty

namespace CIRCNetwork

/-- `GetNick()`, `GetAltNick()`, `GetIdent()`, `GetRealName()`, `GetBindHost()` and `GetQuitMsg()` -/
def get (net : CIRCNetwork) (setting : Setting) : CString :=
  if net.settings setting = [] then net.user.get setting else net.settings setting

def table (env : Env) (net : CIRCNetwork) : List (CString × VCString) :=
  [(lit "Nick", [net.settings .nick]),
    (lit "AltNick", [net.settings .altNick]),
    (lit "Ident", [net.settings .ident]),
    (lit "RealName", [net.settings .realName]),
    (lit "BindHost", [net.settings .bindHost]),
    (lit "IRCConnectEnabled", [boolText net.bIRCConnectEnabled]),
    (lit "TrustAllCerts", [boolText net.bTrustAllCerts]),
    (lit "TrustPKI", [boolText net.bTrustPKI]),
    (lit "FloodRate", [env.floatText net.fFloodRate]),
    (lit "FloodBurst", [uintText net.uFloodBurst.toNat]),
    (lit "JoinDelay", [uintText net.uJoinDelay.toNat]),
    (lit "Encoding", [net.sEncoding]),
    (lit "QuitMsg", [net.settings .quitMsg]),
    (lit "LoadModule", net.modules.vMods.map CModule.line),
    (lit "Server", net.servers.vServers.map fun pServer => getString pServer true),
    (lit "TrustedServerFingerprint", net.ssTrustedFingerprints.toList)]

def configChans (net : CIRCNetwork) : List (CString × CConfig) :=
  (net.vChans.filter (·.bInConfig)).map fun pChan => (pChan.sName, pChan.toConfig)

def toConfig (env : Env) (net : CIRCNetwork) : CConfig :=
  net.configChans.foldl (fun config chan => (config.addSubConfig (lit "Chan") chan.1 chan.2).2)
    (addTable (net.table env) .empty)

end CIRCNetwork

/-! ## Tables -/

/-- the values that `AddKeyValuePair` adds -/
def nonempty (values : VCString) : VCString := values.filter (· ≠ [])

@[simp] theorem nonempty_nil : nonempty [] = [] := rfl

def valuesOf (k : CString) (table : List (CString × VCString)) : VCString :=
  table.flatMap fun e => if e.1 = k then nonempty e.2 else []

/-- the values of a key in a config -/
def look (c : CConfig) (k : CString) : VCString := (c.configEntries.find k).getD []

/-- no key without values -/
def Full (c : CConfig) : Prop := ∀ k, c.configEntries.find k ≠ some []

theorem full_empty : Full .empty := by
  intro k
  rw [CConfig.empty, OrdMap.find_empty]
  exact fun h => by cases h

theorem look_addKeyValuePair (c : CConfig) {sName : CString} (hname : sName ≠ []) (sValue k : CString) :
    look (c.addKeyValuePair sName sValue) k = look c k ++ if sName = k then nonempty [sValue] else [] := by
  by_cases hvalue : sValue = []
  · simp [CConfig.addKeyValuePair, hvalue, nonempty]
  · rw [CConfig.addKeyValuePair, if_neg (by simp [hname, hvalue]), look, EntryMap.pushBack, OrdMap.find_insert,
      nonempty, filter_cons_of_pos (by simpa using hvalue)]
    by_cases hk : k = sName
    · rw [if_pos hk, if_pos hk.symm, hk]
      rfl
    · rw [if_neg hk, if_neg (Ne.symm hk), append_nil]
      rfl

theorem full_addKeyValuePair {c : CConfig} (h : Full c) (sName sValue : CString) :
    Full (c.addKeyValuePair sName sValue) := by
  intro k
  rw [CConfig.addKeyValuePair]
  split_ifs with hempty
  · exact h k
  · dsimp only
    rw [EntryMap.pushBack, OrdMap.find_insert]
    split_ifs
    · simp
    · exact h k

theorem subConfigs_addKeyValuePair (c : CConfig) (sName sValue : CString) :
    (c.addKeyValuePair sName sValue).subConfigs = c.subConfigs := by
  rw [CConfig.addKeyValuePair]
  split_ifs <;> rfl

theorem addValues_spec (sName : CString) (values : VCString) (c : CConfig) :
    let c' := values.foldl (fun c sValue => c.addKeyValuePair sName sValue) c
    (Full c → Full c') ∧ c'.subConfigs = c.subConfigs ∧
      (sName ≠ [] → ∀ k, look c' k = look c k ++ if sName = k then nonempty values else []) := by
  induction values generalizing c with
  | nil => exact ⟨id, rfl, fun _ k => by simp⟩
  | cons sValue values ih =>
    obtain ⟨hfull, hsubs, hlook⟩ := ih (c.addKeyValuePair sName sValue)
    refine ⟨fun h => hfull (full_addKeyValuePair h sName sValue), ?_, fun hname k => ?_⟩
    · rw [foldl_cons, hsubs, subConfigs_addKeyValuePair]
    · rw [foldl_cons, hlook hname, look_addKeyValuePair c hname, append_assoc]
      by_cases hk : sName = k
      · rw [if_pos hk, if_pos hk, if_pos hk, nonempty, nonempty, nonempty, ← filter_append]
        rfl
      · rw [if_neg hk, if_neg hk, if_neg hk, append_nil]

theorem addTable_spec (table : List (CString × VCString)) (c : CConfig) :
    (Full c → Full (addTable table c)) ∧ (addTable table c).subConfigs = c.subConfigs ∧
      ([] ∉ table.map Prod.fst → ∀ k, look (addTable table c) k = look c k ++ valuesOf k table) := by
  induction table generalizing c with
  | nil => exact ⟨id, rfl, fun _ k => (append_nil _).symm⟩
  | cons e table ih =>
    obtain ⟨hfull, hsubs, hlook⟩ := addValues_spec e.1 e.2 c
    obtain ⟨ihfull, ihsubs, ihlook⟩ := ih (e.2.foldl (fun c sValue => c.addKeyValuePair e.1 sValue) c)
    refine ⟨fun h => ihfull (hfull h), ihsubs.trans hsubs, fun hnames k => ?_⟩
    rw [map_cons, mem_cons, not_or] at hnames
    have hrest := ihlook hnames.2 k
    rw [hlook (Ne.symm hnames.1), append_assoc] at hrest
    rw [valuesOf, flatMap_cons]
    exact hrest

theorem ext_look {c c' : CConfig} (h : Full c) (h' : Full c') (hlook : ∀ k, look c k = look c' k)
    (hsubs : c.subConfigs = c'.subConfigs) : c = c' := by
  have hentries : c.configEntries = c'.configEntries := by
    refine OrdMap.ext_find fun k => ?_
    have hk := hlook k
    rw [look, look] at hk
    cases hc : c.configEntries.find k with
    | none =>
      cases hc' : c'.configEntries.find k with
      | none => rfl
      | some values =>
        rw [hc, hc'] at hk
        exact absurd (hc'.trans (congrArg some hk.symm)) (h' k)
    | some values =>
      cases hc' : c'.configEntries.find k with
      | none =>
        rw [hc, hc'] at hk
        exact absurd (hc.trans (congrArg some hk)) (h k)
      | some values' =>
        rw [hc, hc'] at hk
        exact congrArg some hk
  cases c
  cases c'
  cases hentries
  cases hsubs
  rfl

theorem valuesOf_of_not_mem {k : CString} {table : List (CString × VCString)} (h : k ∉ table.map Prod.fst) :
    valuesOf k table = [] := by
  rw [valuesOf, flatMap_eq_nil_iff]
  intro e he
  exact if_neg fun hk => h (mem_map.2 ⟨e, he, hk⟩)

theorem valuesOf_eq_iff {table table' : List (CString × VCString)} (hkeys : table.map Prod.fst = table'.map Prod.fst)
    (hnodup : (table.map Prod.fst).Nodup) :
    (∀ k, valuesOf k table = valuesOf k table') ↔
      (table.map fun e => nonempty e.2) = table'.map fun e => nonempty e.2 := by
  induction table generalizing table' with
  | nil =>
    cases table' with
    | nil => simp
    | cons e' table' => cases hkeys
  | cons e table ih =>
    cases table' with
    | nil => cases hkeys
    | cons e' table' =>
      obtain ⟨hkey, hrest⟩ := List.cons.inj hkeys
      obtain ⟨hfirst, hnodup⟩ := nodup_cons.1 hnodup
      have hcons (k : CString) (e : CString × VCString) (table : List (CString × VCString)) :
          valuesOf k (e :: table) = (if e.1 = k then nonempty e.2 else []) ++ valuesOf k table := flatMap_cons
      have hfirst' : e'.1 ∉ table'.map Prod.fst := by
        rw [← hrest, ← hkey]
        exact hfirst
      rw [map_cons, map_cons, List.cons.injEq, ← ih hrest hnodup]
      constructor
      · intro h
        have hhead : nonempty e.2 = nonempty e'.2 := by
          have hk := h e.1
          rwa [hcons, hcons, if_pos rfl, if_pos hkey.symm, valuesOf_of_not_mem hfirst, hkey,
            valuesOf_of_not_mem hfirst', append_nil, append_nil] at hk
        refine ⟨hhead, fun k => ?_⟩
        have hk := h k
        rw [hcons, hcons, ← hkey, hhead] at hk
        exact append_cancel_left hk
      · rintro ⟨hhead, htail⟩ k
        rw [hcons, hcons, ← hkey, hhead, htail k]

theorem addTable_eq_iff {table table' : List (CString × VCString)} (hkeys : table.map Prod.fst = table'.map Prod.fst)
    (hnodup : (table.map Prod.fst).Nodup) (hnames : [] ∉ table.map Prod.fst) :
    addTable table .empty = addTable table' .empty ↔
      (table.map fun e => nonempty e.2) = table'.map fun e => nonempty e.2 := by
  obtain ⟨hfull, hsubs, hlook⟩ := addTable_spec table .empty
  obtain ⟨hfull', hsubs', hlook'⟩ := addTable_spec table' .empty
  rw [hkeys] at hnames
  rw [← valuesOf_eq_iff hkeys hnodup]
  constructor
  · intro h k
    have hk : look (addTable table .empty) k = look (addTable table' .empty) k := by rw [h]
    rwa [hlook (hkeys ▸ hnames), hlook' hnames, append_cancel_left_eq] at hk
  · intro h
    refine ext_look (hfull full_empty) (hfull' full_empty) (fun k => ?_) (hsubs.trans hsubs'.symm)
    rw [hlook (hkeys ▸ hnames), hlook' hnames, h k]

/-! ## Blocks -/

/-- blocks of one tag -/
def blocks (sTag : CString) : List (CString × CConfig) → SubConfigs
  | [] => .nil
  | chan :: chans => .block sTag chan.1 chan.2.configEntries chan.2.subConfigs (blocks sTag chans)

theorem blocks_inj {sTag : CString} {chans chans' : List (CString × CConfig)}
    (h : blocks sTag chans = blocks sTag chans') :
    chans = chans' := by
  induction chans generalizing chans' with
  | nil =>
    cases chans' with
    | nil => rfl
    | cons chan' chans' => cases h
  | cons chan chans ih =>
    cases chans' with
    | nil => cases h
    | cons chan' chans' =>
      obtain ⟨-, hname, hentries, hsubs, hrest⟩ := SubConfigs.block.inj h
      have hconfig : chan.2 = chan'.2 := by
        obtain ⟨_, _, _⟩ := chan
        obtain ⟨_, _, _⟩ := chan'
        cases hentries
        cases hsubs
        rfl
      rw [ih hrest, Prod.ext hname hconfig]

theorem emplaceBack_blocks (sTag sName : CString) (config : CConfig) (chans : List (CString × CConfig)) :
    (blocks sTag chans).emplaceBack sTag sName config = blocks sTag (chans ++ [(sName, config)]) := by
  induction chans with
  | nil => rfl
  | cons chan chans ih => rw [blocks, SubConfigs.emplaceBack, if_neg (lt_irrefl _), ih, cons_append, blocks]

theorem has_blocks {sTag sName : CString} {chans : List (CString × CConfig)} :
    (blocks sTag chans).has sTag sName = true ↔ sName ∈ chans.map Prod.fst := by
  induction chans with
  | nil => simp [blocks, SubConfigs.has]
  | cons chan chans ih =>
    rw [blocks, SubConfigs.has, Bool.or_eq_true, ih, map_cons, mem_cons]
    simp [eq_comm]

/-- **Blocks are added** unless there is one of that name. -/
theorem addSubConfigs_kept (sTag : CString) (entries : EntryMap) (chans' : List (CString × CConfig))
    {chans : List (CString × CConfig)} (hnodup : (chans.map Prod.fst).Nodup) :
    ∃ kept, kept.Sublist chans' ∧ ((chans ++ kept).map Prod.fst).Nodup ∧
      (((chans ++ chans').map Prod.fst).Nodup → kept = chans') ∧
      chans'.foldl (fun (config : CConfig) chan => (config.addSubConfig sTag chan.1 chan.2).2)
        ⟨entries, blocks sTag chans⟩ = ⟨entries, blocks sTag (chans ++ kept)⟩ := by
  induction chans' generalizing chans with
  | nil =>
    refine ⟨[], List.Sublist.slnil, ?_, fun _ => rfl, ?_⟩
    · rwa [append_nil]
    · rw [append_nil, foldl_nil]
  | cons chan chans' ih =>
    by_cases hhas : (blocks sTag chans).has sTag chan.1 = true
    · obtain ⟨kept, hsub, hkept, -, hfold⟩ := ih hnodup
      refine ⟨kept, hsub.cons chan, hkept, fun hall => ?_, ?_⟩
      · rw [map_append, map_cons] at hall
        exact absurd mem_cons_self (disjoint_of_nodup_append hall (has_blocks.1 hhas))
      · rw [foldl_cons, CConfig.addSubConfig, if_pos hhas]
        exact hfold
    · have hmove (l : List (CString × CConfig)) : chans ++ chan :: l = (chans ++ [chan]) ++ l := by
        rw [append_assoc, singleton_append]
      have hnew : ((chans ++ [chan]).map Prod.fst).Nodup := by
        rw [map_append, map_singleton, nodup_append_comm, singleton_append, nodup_cons]
        exact ⟨fun hmem => hhas (has_blocks.2 hmem), hnodup⟩
      obtain ⟨kept, hsub, hkept, heq, hfold⟩ := ih hnew
      refine ⟨chan :: kept, hsub.cons_cons chan, ?_, fun hall => ?_, ?_⟩
      · rwa [hmove]
      · rw [heq (by rwa [← hmove])]
      · rw [foldl_cons, hmove, ← hfold, CConfig.addSubConfig, if_neg hhas, CConfig.emplaceBack, emplaceBack_blocks]

theorem addSubConfigs_eq (sTag : CString) (chans chans' : List (CString × CConfig)) (entries : EntryMap)
    (hnodup : ((chans ++ chans').map Prod.fst).Nodup) :
    chans'.foldl (fun (config : CConfig) chan => (config.addSubConfig sTag chan.1 chan.2).2)
      ⟨entries, blocks sTag chans⟩ =
      ⟨entries, blocks sTag (chans ++ chans')⟩ := by
  have hfirst : (chans.map Prod.fst).Nodup := (List.Sublist.map Prod.fst (sublist_append_left _ _)).nodup hnodup
  obtain ⟨kept, -, -, hkept, hfold⟩ := addSubConfigs_kept sTag entries chans' hfirst
  rw [hfold, hkept hnodup]

/-! ## Texts -/

theorem boolText_ne (b : Bool) : boolText b ≠ [] := by
  cases b <;> decide

theorem boolText_inj {b b' : Bool} (h : boolText b = boolText b') : b = b' := by
  revert h
  cases b <;> cases b' <;> decide

theorem uintText_ne (u : ℕ) : uintText u ≠ [] := by
  rw [uintText, lit, Nat.toString_eq_repr, Ne, map_eq_nil_iff, Nat.toList_repr]
  exact Nat.toDigits_ne_nil

theorem nonempty_singleton {sValue : CString} (h : sValue ≠ []) : nonempty [sValue] = [sValue] :=
  filter_cons_of_pos (by simpa using h)

theorem nonempty_flag_iff {sValue : CString} (h : sValue ≠ []) (b b' : Bool) :
    nonempty (if b = true then [sValue] else []) = nonempty (if b' = true then [sValue] else []) ↔ b = b' := by
  cases b with
  | false =>
    cases b' with
    | false => simp
    | true => simp [nonempty_singleton h]
  | true =>
    cases b' with
    | false => simp [nonempty_singleton h]
    | true => simp

theorem nonempty_singleton_inj {s t : CString} (h : nonempty [s] = nonempty [t]) : s = t := by
  by_cases hs : s = []
  · by_cases ht : t = []
    · rw [hs, ht]
    · simp [nonempty, hs, ht] at h
  · by_cases ht : t = []
    · simp [nonempty, hs, ht] at h
    · simpa [nonempty, hs, ht] using h

theorem nonempty_eq_self {values : VCString} (h : ∀ sValue ∈ values, sValue ≠ []) : nonempty values = values :=
  filter_eq_self.2 fun sValue hvalue => by simpa using h sValue hvalue

theorem CModule.noSpace (pMod : CModule) : (0x20 : UInt8) ∉ pMod.sModName := by
  intro hmem
  exact absurd (all_eq_true.1 pMod.valid _ hmem) (by decide)

theorem CModule.line_ne (pMod : CModule) : pMod.line ≠ [] := by
  rw [CModule.line]
  simp [pMod.ne]

theorem CModule.line_inj {pMod pMod' : CModule} (h : pMod.line = pMod'.line) : pMod = pMod' := by
  have hsplit (pMod : CModule) : pMod.line.takeWhile (· ≠ 0x20) = pMod.sModName ∧
      pMod.line.dropWhile (· ≠ 0x20) = if pMod.sArgs = [] then [] else lit " " ++ pMod.sArgs := by
    have hname : ∀ c ∈ pMod.sModName, decide (c ≠ 0x20) = true := by
      intro c hc
      simpa using fun h : c = 0x20 => pMod.noSpace (h ▸ hc)
    rw [CModule.line, takeWhile_append_of_pos hname, dropWhile_append_of_pos hname]
    split_ifs
    · exact ⟨append_nil _, rfl⟩
    · exact ⟨append_nil _, rfl⟩
  obtain ⟨hname, hargs⟩ := hsplit pMod
  obtain ⟨hname', hargs'⟩ := hsplit pMod'
  rw [h] at hname hargs
  have hargs : pMod.sArgs = pMod'.sArgs := by
    have hboth := hargs.symm.trans hargs'
    split_ifs at hboth with hempty hempty'
    · rw [hempty, hempty']
    · cases hboth
    · cases hboth
    · exact append_cancel_left hboth
  cases pMod
  cases pMod'
  cases hname.symm.trans hname'
  cases hargs
  rfl

theorem map_line_inj {vMods vMods' : List CModule}
    (h : vMods.map CModule.line = vMods'.map CModule.line) : vMods = vMods' :=
  map_injective_iff.2 (fun _ _ => CModule.line_inj) h

/-! ## Configs -/

/-- the keys of a network's config -/
def netKeys : VCString :=
  [lit "Nick", lit "AltNick", lit "Ident", lit "RealName", lit "BindHost", lit "IRCConnectEnabled", lit "TrustAllCerts",
    lit "TrustPKI", lit "FloodRate", lit "FloodBurst", lit "JoinDelay", lit "Encoding", lit "QuitMsg", lit "LoadModule",
    lit "Server", lit "TrustedServerFingerprint"]

/-- the keys of a channel's config -/
def chanKeys : VCString :=
  [lit "Buffer", lit "AutoClearChanBuffer", lit "Detached", lit "Disabled", lit "Key", lit "Modes"]

theorem CChan.toConfig_eq_iff (chan chan' : CChan) :
    chan.toConfig = chan'.toConfig ↔
      (chan.table.map fun e => nonempty e.2) = chan'.table.map fun e => nonempty e.2 := by
  have hnodup : chanKeys.Nodup := by decide
  have hnames : [] ∉ chanKeys := by decide
  exact addTable_eq_iff rfl hnodup hnames

namespace CIRCNetwork

theorem table_eq_iff (env : Env) (net net' : CIRCNetwork) :
    addTable (net.table env) .empty = addTable (net'.table env) .empty ↔
      ((net.table env).map fun e => nonempty e.2) = (net'.table env).map fun e => nonempty e.2 := by
  have hnodup : netKeys.Nodup := by decide
  have hnames : [] ∉ netKeys := by decide
  exact addTable_eq_iff rfl hnodup hnames

theorem toConfig_eq (env : Env) {net : CIRCNetwork} (h : (net.configChans.map Prod.fst).Nodup) :
    net.toConfig env =
      ⟨(addTable (net.table env) .empty).configEntries, blocks (lit "Chan") net.configChans⟩ := by
  have hblocks := addSubConfigs_eq (lit "Chan") [] net.configChans (addTable (net.table env) .empty).configEntries h
  rw [nil_append] at hblocks
  rw [toConfig, ← hblocks]
  congr 1
  have hsubs := (addTable_spec (net.table env) .empty).2.1
  cases hc : addTable (net.table env) .empty
  rw [hc] at hsubs
  cases hsubs
  rfl

theorem toConfig_eq_iff (env : Env) {net net' : CIRCNetwork} (h : (net.configChans.map Prod.fst).Nodup)
    (h' : (net'.configChans.map Prod.fst).Nodup) :
    net.toConfig env = net'.toConfig env ↔
      (((net.table env).map fun e => nonempty e.2) = (net'.table env).map fun e => nonempty e.2) ∧
        net.configChans = net'.configChans := by
  rw [← table_eq_iff, toConfig_eq env h, toConfig_eq env h', CConfig.mk.injEq]
  refine and_congr ⟨fun hentries => ?_, fun htable => by rw [htable]⟩ ⟨blocks_inj, fun hchans => by rw [hchans]⟩
  have hsubs := (addTable_spec (net.table env) .empty).2.1
  have hsubs' := (addTable_spec (net'.table env) .empty).2.1
  cases hc : addTable (net.table env) .empty
  cases hc' : addTable (net'.table env) .empty
  rw [hc, hc'] at hentries
  rw [hc] at hsubs
  rw [hc'] at hsubs'
  cases hentries
  cases hsubs
  cases hsubs'
  rfl

end CIRCNetwork

end ZNC.NetworkClone
