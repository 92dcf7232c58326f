/-
Cloning a network: `CIRCNetwork::Clone` and the copying constructor of `src/IRCNetwork.cpp`, with `CChan::Clone` of
`src/Chan.cpp`, against `ToConfig`.

`Clone` copies the settings one by one. Channels and modules of the other network are merged into those that are there
already, and then each channel takes over what the channel of its name has. `TrustAllCerts`, `TrustPKI` and the `Disabled`
of a channel are not copied, and each channel gets a buffer size and an `AutoClearChanBuffer` of its own.

Model: the clone of `Network` is made in `net`, which is a new network in the copying constructor. Lines to clients and
servers and the end of a connection are left out.

Results:
- `vMods_clone`, `vChans_clone`: the modules and the channels of the clone;
- `clone_same_iff`: when the clone has the config of the network;
- `clone_adds`: a new network whose clone has another config.
-/
import ZNC.Lib.Merge
import ZNC.NetworkConfig

namespace ZNC.NetworkClone

open CString Config List
open JoinedChans.CIRCNetwork (Fits)

/-! ## Model -/

def realEncoding (sEncoding : CString) : CString :=
  match sEncoding with
  | [] => []
  | c :: s => CString.cStr (if c = ch '*' || c = ch '^' then s else c :: s)

def Env.fixupEncoding (env : Env) (sEncoding : CString) : CString :=
  if !env.bForceEncoding then sEncoding
  else if realEncoding sEncoding = [] || !env.ucnv_open (realEncoding sEncoding) then lit "UTF-8"
  else sEncoding

/-- what `SetNick(s)`, `SetAltNick(s)`, `SetIdent(s)`, `SetRealName(s)`, `SetBindHost(s)` and `SetQuitMsg(s)` store -/
def CUser.stored (user : CUser) (setting : Setting) (s : CString) : CString :=
  if (user.get setting).equals s then [] else s

/-! ### Servers -/

def cloneServers (s Network : ServerList) : ServerList :=
  let sServer := ((s.currentServer.bind (s.vServers[·]?)).map CServer.sName).getD []
  -- `DelServers`
  let s' := Network.vServers.foldl ServerList.addServer { s with vServers := [], nodup := nodup_nil }
  { s' with
    uServerIdx := match s'.vServers.findIdx? fun pServer => sServer.equals pServer.sName with
      | some a => a + 1
      | none => s'.vServers.length }

/-! ### Modules -/

namespace CModules

def empty : CModules := ⟨[], Distinct.nil⟩

def findModule (ms : CModules) (sModule : CString) : Option CModule :=
  ms.vMods.find? fun pMod => sModule.equals pMod.sModName

theorem not_equals_of_findModule {ms : CModules} {sModule : CString} (h : ms.findModule sModule = none) :
    ∀ pMod ∈ ms.vMods, ¬sModule.equals pMod.sModName = true := by
  intro pMod hmod
  simpa using find?_eq_none.1 h pMod hmod

theorem distinct_concat {ms : CModules} {pModule : CModule} (h : ms.findModule pModule.sModName = none) :
    Distinct SameMod (ms.vMods ++ [pModule]) :=
  ms.distinct.concat fun pMod hmod hsame => not_equals_of_findModule h pMod hmod ((equals_comm _ _).trans hsame)

/-- `LoadModule(sModule, sArgs)`; there is no module without a name -/
def loadModule (env : Env) (ms : CModules) (sModule sArgs : CString) : CModules :=
  if hok : sModule ≠ [] ∧ validateModuleName sModule = true then
    if hfind : ms.findModule sModule = none then
      match env.loadModule sModule sArgs with
      | none => ms
      | some sArgs => ⟨ms.vMods ++ [⟨sModule, sArgs, hok.1, hok.2⟩], distinct_concat hfind⟩
    else ms
  else ms

/-- `UnloadModule(sModule)`: whether the module is gone, and the modules afterwards -/
def unloadModule (env : Env) (ms : CModules) (sModule : CString) : Bool × CModules :=
  match ms.findModule sModule with
  | none => (false, ms)
  | some pModule =>
    if env.unloadModule pModule then
      (true, ⟨ms.vMods.eraseP fun pMod => sModule.equals pMod.sModName, ms.distinct.eraseP _⟩)
    else (false, ms)

def reloadModule (env : Env) (ms : CModules) (sModule sArgs : CString) : CModules :=
  match ms.unloadModule env sModule with
  | (false, ms) => ms
  | (true, ms) => ms.loadModule env sModule sArgs

/-- the first loop of `Clone` over the modules -/
def mergeModule (env : Env) (vCurMods : CModules) (pNewMod : CModule) : CModules :=
  match vCurMods.findModule pNewMod.sModName with
  | none => vCurMods.loadModule env pNewMod.sModName pNewMod.sArgs
  | some pCurMod =>
    if pNewMod.sArgs ≠ pCurMod.sArgs then vCurMods.reloadModule env pNewMod.sModName pNewMod.sArgs else vCurMods

def clone (env : Env) (vCurMods vNewMods : CModules) : CModules :=
  let vCurMods := vNewMods.vMods.foldl (mergeModule env) vCurMods
  let ssUnloadMods : SCString :=
    .ofList ((vCurMods.vMods.filter fun pCurMod => (vNewMods.findModule pCurMod.sModName).isNone).map CModule.sModName)
  ssUnloadMods.toList.foldl (fun vCurMods sMod => (vCurMods.unloadModule env sMod).2) vCurMods

end CModules

/-! ### Channels -/

def CChan.clone (pChan chan : CChan) : CChan :=
  { pChan with
    bHasBufferCountSet := true
    uBufferCount := chan.uBufferCount
    bHasAutoClearChanBufferSet := true
    bAutoClearChanBuffer := chan.bAutoClearChanBuffer
    sKey := chan.sKey
    sDefaultModes := chan.sDefaultModes
    bDetached := chan.bDetached }

namespace CIRCNetwork

/-- `FindChan(sName)`: the place of the channel -/
def findChan (net : CIRCNetwork) (sName : CString) : Option ℕ :=
  net.vChans.findIdx? fun pChan => (sName.trimLeft net.sStatusMsg).equals pChan.sName

def isChan (net : CIRCNetwork) (sChan : CString) : Bool :=
  match sChan with
  | [] => false
  | c :: _ => net.sChanPrefixes = [] || c ∈ net.sChanPrefixes

def chanName (net : CIRCNetwork) (sName : CString) : CString :=
  let sName := sName.token 0 false 0x20 false
  if net.isChan sName then sName else lit "#" ++ sName

/-- `CChan::CChan(sName, pNetwork, bInConfig)` -/
def newChan (net : CIRCNetwork) (sName : CString) (bInConfig : Bool) : CChan where
  sName := net.chanName sName
  sKey := sName.token 1 false 0x20 false
  sDefaultModes := []
  bInConfig := bInConfig
  bDetached := false
  bDisabled := false
  bHasBufferCountSet := false
  uBufferCount := net.user.uChanBufferSize
  bHasAutoClearChanBufferSet := false
  bAutoClearChanBuffer := net.user.bAutoClearChanBuffer

def addChan (net : CIRCNetwork) (sName : CString) (bInConfig : Bool) : CIRCNetwork :=
  if sName = [] ∨ (net.findChan sName).isSome then net
  else { net with vChans := net.vChans ++ [net.newChan sName bInConfig] }

/-- `SetInConfig(b)` of a channel -/
def setInConfig (net : CIRCNetwork) (pChan : ℕ) (b : Bool) : CIRCNetwork :=
  { net with vChans := net.vChans.modify pChan fun chan => { chan with bInConfig := b } }

/-- the first loop of `Clone` over the channels -/
def mergeChan (net : CIRCNetwork) (pNewChan : CChan) : CIRCNetwork :=
  match net.findChan pNewChan.sName with
  | some pChan => net.setInConfig pChan pNewChan.bInConfig
  | none => net.addChan pNewChan.sName pNewChan.bInConfig

/-- the second loop of `Clone` over the channels -/
def cloneChan (Network : CIRCNetwork) (pChan : CChan) : CChan :=
  match (Network.findChan pChan.sName).bind (Network.vChans[·]?) with
  | none => { pChan with bInConfig := false }
  | some pNewChan => pChan.clone pNewChan

theorem named_addServer {s : ServerList} (h : ∀ pServer ∈ s.vServers, pServer.sName ≠ []) (Server : CServer) :
    ∀ pServer ∈ (s.addServer Server).vServers, pServer.sName ≠ [] := by
  rw [ServerList.addServer]
  split_ifs with hskip
  · exact h
  · intro pServer hserver
    rcases mem_append.1 hserver with hserver | hserver
    · exact h pServer hserver
    · rw [mem_singleton.1 hserver]
      exact (not_or.1 hskip).1

theorem named_addServers {s : ServerList} (h : ∀ pServer ∈ s.vServers, pServer.sName ≠ []) (vServers : List CServer) :
    ∀ pServer ∈ (vServers.foldl ServerList.addServer s).vServers, pServer.sName ≠ [] := by
  induction vServers generalizing s with
  | nil => exact h
  | cons Server vServers ih => exact ih (named_addServer h Server)

def clone (env : Env) (net Network : CIRCNetwork) : CIRCNetwork :=
  { net with
    fFloodRate := Network.fFloodRate
    uFloodBurst := Network.uFloodBurst
    uJoinDelay := Network.uJoinDelay
    settings := fun setting => net.user.stored setting (Network.get setting)
    sEncoding := env.fixupEncoding Network.sEncoding
    ssTrustedFingerprints := Network.ssTrustedFingerprints
    servers := cloneServers net.servers Network.servers
    named := named_addServers (fun _ h => absurd h List.not_mem_nil) _
    vChans := (Network.vChans.foldl mergeChan net).vChans.map Network.cloneChan
    modules := net.modules.clone env Network.modules
    bIRCConnectEnabled := Network.bIRCConnectEnabled }

/-- a new network of a user -/
def new (user : CUser) : CIRCNetwork where
  user := user
  settings := fun _ => []
  sEncoding := []
  bIRCConnectEnabled := true
  bTrustAllCerts := false
  bTrustPKI := true
  fFloodRate := 0x4000000000000000
  uFloodBurst := 9
  uJoinDelay := 0
  ssTrustedFingerprints := .empty
  servers := .initial
  named := fun _ h => nomatch h
  modules := .empty
  vChans := []
  sStatusMsg := []
  sChanPrefixes := []

def copy (env : Env) (pUser : CUser) (Network : CIRCNetwork) : CIRCNetwork := (new pUser).clone env Network

end CIRCNetwork

/-! ## Statement -/

/-- what a channel may have of its own -/
inductive Override where
  | buffer
  | autoClearChanBuffer

def CChan.has (chan : CChan) : Override → Bool
  | .buffer => chan.bHasBufferCountSet
  | .autoClearChanBuffer => chan.bHasAutoClearChanBufferSet

def SameChan (c d : CChan) : Prop := c.sName.equals d.sName = true

instance SameChan.decidable : DecidableRel SameChan :=
  fun c d => inferInstanceAs (Decidable (c.sName.equals d.sName = true))

def CIRCNetwork.namesake (net : CIRCNetwork) (sName : CString) : Option CChan :=
  net.vChans.find? fun pChan => sName.equals pChan.sName

/-- the clone has the config of `Network`, and no overrides but those that `Network` has or `net` had -/
structure Cloned (env : Env) (net Network : CIRCNetwork) : Prop where
  config : (net.clone env Network).toConfig env = Network.toConfig env
  overrides : ∀ o, ∀ chan ∈ (net.clone env Network).vChans, chan.has o = true →
    ∃ d ∈ net.vChans ++ Network.vChans, d.sName.equals chan.sName = true ∧ d.has o = true

/-- the channels have pairwise different names, no STATUSMSG prefix stands in front of one, and `net` takes the names as they are -/
structure Compatible (net Network : CIRCNetwork) : Prop where
  own : Distinct SameChan net.vChans
  new : Distinct SameChan Network.vChans
  fits : ∀ chan ∈ Network.vChans, Fits net.sStatusMsg chan.sName
  fitsBoth : ∀ chan ∈ net.vChans ++ Network.vChans, Fits Network.sStatusMsg chan.sName
  taken : ∀ chan ∈ Network.vChans, net.chanName chan.sName = chan.sName

/-- a setting that is not there is that of both users, and any other is not that of the user of the clone -/
def SettingKept (user : CUser) (Network : CIRCNetwork) (setting : Setting) : Prop :=
  if Network.settings setting = [] then
    Network.user.get setting = [] ∨ (user.get setting).equals (Network.user.get setting) = true
  else (user.get setting).equals (Network.settings setting) = false

/-- an encoding that may be forced -/
def EncodingKept (env : Env) (sEncoding : CString) : Prop :=
  env.bForceEncoding = true →
    sEncoding = lit "UTF-8" ∨ realEncoding sEncoding ≠ [] ∧ env.ucnv_open (realEncoding sEncoding) = true

def Stays (vNewMods : CModules) (pCurMod : CModule) : Prop :=
  ∃ pNewMod ∈ vNewMods.vMods, pNewMod.sModName.equals pCurMod.sModName = true ∧ pNewMod.sArgs = pCurMod.sArgs

/-- a module that is there as it should be -/
def Loaded (vCurMods : CModules) (pNewMod : CModule) : Prop :=
  ∃ pCurMod ∈ vCurMods.vMods, pNewMod.sModName.equals pCurMod.sModName = true ∧ pNewMod.sArgs = pCurMod.sArgs

instance Stays.decidable (vNewMods : CModules) (pCurMod : CModule) : Decidable (Stays vNewMods pCurMod) :=
  inferInstanceAs (Decidable (∃ pNewMod ∈ vNewMods.vMods, _ ∧ _))

instance Loaded.decidable (vCurMods : CModules) (pNewMod : CModule) : Decidable (Loaded vCurMods pNewMod) :=
  inferInstanceAs (Decidable (∃ pCurMod ∈ vCurMods.vMods, _ ∧ _))

/-- modules that have to go can be unloaded, those that have to come can be loaded with their arguments, and those that stay
stand in front, in the same order and with the same spelling -/
structure ModulesKept (env : Env) (vCurMods vNewMods : CModules) : Prop where
  gone : ∀ pCurMod ∈ vCurMods.vMods, ¬Stays vNewMods pCurMod → env.unloadModule pCurMod = true
  loaded : ∀ pNewMod ∈ vNewMods.vMods, ¬Loaded vCurMods pNewMod →
    env.loadModule pNewMod.sModName pNewMod.sArgs = some pNewMod.sArgs
  order : (vCurMods.vMods.filter fun pCurMod => Stays vNewMods pCurMod).map CModule.sModName ++
      (vNewMods.vMods.filter fun pNewMod => ¬Loaded vCurMods pNewMod).map CModule.sModName =
    vNewMods.vMods.map CModule.sModName

/-- the channels of the config have both overrides, the others no less than one of the two networks gives them; what is
disabled is so in both networks; and the channels that are there already stand in front, in the same order and with the
same spelling -/
structure ChansKept (net Network : CIRCNetwork) : Prop where
  overrides : ∀ chan ∈ Network.vChans, chan.bInConfig = true → ∀ o, chan.has o = true
  notAdded : ∀ chan ∈ Network.vChans, ∀ o,
    chan.has o = true ∨ ∃ d ∈ net.vChans, d.sName.equals chan.sName = true ∧ d.has o = true
  disabled : ∀ chan ∈ Network.vChans, chan.bInConfig = true →
    chan.bDisabled = (net.namesake chan.sName).any (·.bDisabled)
  order : (net.vChans.filter fun pChan => (Network.namesake pChan.sName).any (·.bInConfig)).map CChan.sName ++
      (Network.vChans.filter fun pChan => pChan.bInConfig && (net.namesake pChan.sName).isNone).map CChan.sName =
    (Network.vChans.filter (·.bInConfig)).map CChan.sName

/-- what `Clone` needs to keep the config -/
structure Kept (env : Env) (net Network : CIRCNetwork) : Prop extends Compatible net Network where
  trustAllCerts : net.bTrustAllCerts = Network.bTrustAllCerts
  trustPKI : net.bTrustPKI = Network.bTrustPKI
  settings : ∀ setting, SettingKept net.user Network setting
  encoding : EncodingKept env Network.sEncoding
  modules : ModulesKept env net.modules Network.modules
  chans : ChansKept net Network

/-! ## Settings -/

theorem stored_eq_iff (user : CUser) (Network : CIRCNetwork) (setting : Setting) :
    user.stored setting (Network.get setting) = Network.settings setting ↔ SettingKept user Network setting := by
  rw [CUser.stored, CIRCNetwork.get, SettingKept]
  by_cases hown : Network.settings setting = []
  · rw [if_pos hown, if_pos hown, hown]
    split_ifs with hsame <;> simp [hsame]
  · rw [if_neg hown, if_neg hown]
    split_ifs with hsame
    · simp [hsame, Ne.symm hown]
    · simpa using hsame

theorem fixupEncoding_eq_iff (env : Env) (sEncoding : CString) :
    env.fixupEncoding sEncoding = sEncoding ↔ EncodingKept env sEncoding := by
  rw [Env.fixupEncoding, EncodingKept]
  cases env.bForceEncoding with
  | false => simp
  | true =>
    by_cases hbad : realEncoding sEncoding = [] ∨ env.ucnv_open (realEncoding sEncoding) = false
    · have hno : ¬(realEncoding sEncoding ≠ [] ∧ env.ucnv_open (realEncoding sEncoding) = true) := by
        rintro ⟨hne, hopen⟩
        rcases hbad with hnil | hclosed
        · exact hne hnil
        · exact absurd (hopen.symm.trans hclosed) (by decide)
      rw [if_neg (by decide), if_pos (by simpa using hbad)]
      simp only [hno, or_false, forall_const]
      exact eq_comm
    · have hgood : realEncoding sEncoding ≠ [] ∧ env.ucnv_open (realEncoding sEncoding) = true := by
        simpa [not_or] using hbad
      rw [if_neg (by decide), if_neg (by simpa using hbad)]
      simp only [hgood, ne_eq, not_false_eq_true, and_self, or_true, forall_const]

/-! ## Servers -/

theorem addServers_eq (s : ServerList) (vServers : List CServer) (hnamed : ∀ pServer ∈ vServers, pServer.sName ≠ [])
    (hnodup : (s.vServers ++ vServers).Nodup) :
    (vServers.foldl ServerList.addServer s).vServers = s.vServers ++ vServers := by
  induction vServers generalizing s with
  | nil => rw [append_nil, foldl_nil]
  | cons Server vServers ih =>
    obtain ⟨hne, hnamed⟩ := forall_mem_cons.1 hnamed
    have hnew : Server ∉ s.vServers := fun hmem => disjoint_of_nodup_append hnodup hmem mem_cons_self
    have hadd : (s.addServer Server).vServers = s.vServers ++ [Server] := by
      rw [ServerList.addServer, dif_neg (by simp [hne, hnew])]
    have hmove : s.vServers ++ Server :: vServers = (s.addServer Server).vServers ++ vServers := by
      rw [hadd, append_assoc, singleton_append]
    rw [foldl_cons, hmove]
    exact ih _ hnamed (hmove ▸ hnodup)

theorem vServers_cloneServers (s : ServerList) {Network : ServerList}
    (hnamed : ∀ pServer ∈ Network.vServers, pServer.sName ≠ []) :
    (cloneServers s Network).vServers = Network.vServers :=
  addServers_eq _ _ hnamed Network.nodup

/-! ## Modules -/

theorem eq_of_map_eq {α β : Type} {f : α → β} {l l' : List α} (h : ∀ a ∈ l, ∀ b ∈ l', f a = f b → a = b)
    (hmap : l.map f = l'.map f) : l = l' := by
  induction l generalizing l' with
  | nil => exact (map_eq_nil_iff.1 hmap.symm).symm
  | cons a l ih =>
    cases l' with
    | nil => cases hmap
    | cons b l' =>
      obtain ⟨hab, hrest⟩ := List.cons.inj hmap
      rw [h a mem_cons_self b mem_cons_self hab,
        ih (fun c hc d hd => h c (mem_cons_of_mem _ hc) d (mem_cons_of_mem _ hd)) hrest]

/-- the two names are the same -/
def namesMod (pNewMod pCurMod : CModule) : Bool := pNewMod.sModName.equals pCurMod.sModName

/-- what becomes of a module that is there -/
def placeMod (env : Env) (pCurMod pNewMod : CModule) : Option CModule :=
  if pNewMod.sArgs = pCurMod.sArgs ∨ env.unloadModule pCurMod = false then some pCurMod else none

/-- a module that is loaded -/
def freshMod (env : Env) (pNewMod : CModule) : Option CModule :=
  (env.loadModule pNewMod.sModName pNewMod.sArgs).map fun sArgs => ⟨pNewMod.sModName, sArgs, pNewMod.ne, pNewMod.valid⟩

theorem sameMod_symm (m m' : CModule) (h : SameMod m m') : SameMod m' m := (equals_comm _ _).trans h

theorem sameMod_of_names {b m m' : CModule} (h : namesMod b m = true) (h' : namesMod b m' = true) : SameMod m m' :=
  equals_trans ((equals_comm _ _).trans h) h'

theorem placeMod_some {env : Env} {a b a' : CModule} (h : placeMod env a b = some a') : a' = a := by
  rw [placeMod] at h
  split_ifs at h
  exact (Option.some.inj h).symm

theorem freshMod_some {env : Env} {b a : CModule} (h : freshMod env b = some a) : a.sModName = b.sModName := by
  obtain ⟨sArgs, -, rfl⟩ := Option.map_eq_some_iff.1 h
  rfl

namespace CModules

variable (env : Env) {ms : CModules} {sModule : CString} {a : CModule}

theorem split_of_findModule (h : ms.findModule sModule = some a) :
    ∃ l l', ms.vMods = l ++ a :: l' ∧ sModule.equals a.sModName = true ∧
      ∀ c ∈ l ++ l', ¬sModule.equals c.sModName = true := by
  obtain ⟨ha, l, l', heq, hl⟩ := find?_eq_some_iff_append.1 h
  refine ⟨l, l', heq, ha, fun c hc => ?_⟩
  rcases mem_append.1 hc with hc | hc
  · simpa using hl c hc
  · intro hsame
    have hdistinct := ms.distinct
    rw [Distinct, heq, pairwise_append, pairwise_cons] at hdistinct
    exact hdistinct.2.1.1 c hc (equals_trans ((equals_comm _ _).trans ha) hsame)

theorem findModule_some (h : ms.findModule sModule = some a) :
    a ∈ ms.vMods ∧ sModule.equals a.sModName = true := by
  obtain ⟨l, l', heq, ha, -⟩ := split_of_findModule h
  exact ⟨heq ▸ mem_append_right _ mem_cons_self, ha⟩

theorem findModule_eq_some {ms : CModules} {sModule : CString} {a : CModule} (ha : a ∈ ms.vMods)
    (hname : sModule.equals a.sModName = true) : ms.findModule sModule = some a := by
  cases hfind : ms.findModule sModule with
  | none => exact absurd hname (not_equals_of_findModule hfind a ha)
  | some c =>
    obtain ⟨hmem, hc⟩ := findModule_some hfind
    rw [ms.distinct.eq_of_rel sameMod_symm ha hmem (equals_trans ((equals_comm _ _).trans hname) hc)]

theorem vMods_loadModule {b : CModule} (h : ms.findModule b.sModName = none) :
    (ms.loadModule env b.sModName b.sArgs).vMods = ms.vMods ++ (freshMod env b).toList := by
  rw [loadModule, dif_pos ⟨b.ne, b.valid⟩, dif_pos h, freshMod]
  cases env.loadModule b.sModName b.sArgs with
  | none => exact (append_nil _).symm
  | some sArgs => rfl

theorem unloadModule_split {l l' : List CModule} (hfind : ms.findModule sModule = some a)
    (heq : ms.vMods = l ++ a :: l') (ha : sModule.equals a.sModName = true)
    (hl : ∀ c ∈ l, ¬sModule.equals c.sModName = true) :
    (ms.unloadModule env sModule).1 = env.unloadModule a ∧
      (ms.unloadModule env sModule).2.vMods = if env.unloadModule a then l ++ l' else ms.vMods := by
  rw [unloadModule, hfind]
  dsimp only
  split_ifs with hunload
  · refine ⟨hunload.symm, ?_⟩
    have herase : (a :: l').eraseP (fun pMod => sModule.equals pMod.sModName) = l' := eraseP_cons_of_pos ha
    dsimp only
    rw [heq, eraseP_append_right _ (by simpa using hl), herase]
  · exact ⟨(Bool.eq_false_iff.2 hunload).symm, rfl⟩

theorem vMods_mergeModule (ms : CModules) (b : CModule) :
    (ms.mergeModule env b).vMods = Merge.insertInto namesMod (placeMod env) (freshMod env) b ms.vMods := by
  rw [mergeModule]
  cases hfind : ms.findModule b.sModName with
  | none =>
    have hnone : ∀ a ∈ ms.vMods, ¬namesMod b a = true := not_equals_of_findModule hfind
    rw [Merge.insertInto_none hnone]
    exact vMods_loadModule env hfind
  | some a =>
    obtain ⟨l, l', heq, ha, hother⟩ := split_of_findModule hfind
    have hl : ∀ c ∈ l, ¬namesMod b c = true := fun c hc => hother c (mem_append_left _ hc)
    have hins := @Merge.insertInto_some _ _ namesMod (placeMod env) (freshMod env) b l l' a hl ha
    obtain ⟨hok, hleft⟩ := unloadModule_split env hfind heq ha hl
    by_cases hargs : b.sArgs = a.sArgs
    · have hstay : placeMod env a b = some a := if_pos (.inl hargs)
      rw [hstay] at hins
      rw [heq, hins]
      simp [hargs, heq]
    · rcases hunload : ms.unloadModule env b.sModName with ⟨bUnloaded, left⟩
      rw [hunload] at hok hleft
      dsimp only at hok hleft ⊢
      rw [if_pos hargs, reloadModule, hunload]
      cases bUnloaded with
      | false =>
        have hstay : placeMod env a b = some a := if_pos (.inr hok.symm)
        rw [← hok] at hleft
        rw [hstay] at hins
        rw [heq, hins]
        simp [hleft, heq]
      | true =>
        have hgo : placeMod env a b = none := if_neg (by simp [hargs, ← hok])
        rw [← hok, if_pos rfl] at hleft
        have hnone : left.findModule b.sModName = none := by
          rw [findModule, hleft, find?_eq_none]
          exact hother
        rw [hgo] at hins
        rw [heq, hins]
        dsimp only
        rw [vMods_loadModule env hnone, hleft]
        simp

theorem vMods_mergeModules (ms : CModules) (vNewMods : List CModule) :
    (vNewMods.foldl (mergeModule env) ms).vMods =
      Merge.merge namesMod (placeMod env) (freshMod env) ms.vMods vNewMods := by
  rw [Merge.merge]
  induction vNewMods generalizing ms with
  | nil => rfl
  | cons b vNewMods ih => rw [foldl_cons, foldl_cons, ih, vMods_mergeModule]

theorem vMods_unloadModules (ms : CModules) (names : VCString) :
    (names.foldl (fun ms sMod => (ms.unloadModule env sMod).2) ms).vMods =
      ms.vMods.filter fun a => !(env.unloadModule a && names.any fun sMod => sMod.equals a.sModName) := by
  induction names generalizing ms with
  | nil => simp
  | cons sModule names ih =>
    have hone : (ms.unloadModule env sModule).2.vMods =
        ms.vMods.filter fun a => !(env.unloadModule a && sModule.equals a.sModName) := by
      cases hfind : ms.findModule sModule with
      | none =>
        rw [unloadModule, hfind]
        refine (filter_eq_self.2 fun a ha => ?_).symm
        simp [not_equals_of_findModule hfind a ha]
      | some a =>
        obtain ⟨l, l', heq, ha, hother⟩ := split_of_findModule hfind
        have hl : ∀ c ∈ l, ¬sModule.equals c.sModName = true := fun c hc => hother c (mem_append_left _ hc)
        have hkeep {k : List CModule} (hk : ∀ c ∈ k, ¬sModule.equals c.sModName = true) :
            k.filter (fun a => !(env.unloadModule a && sModule.equals a.sModName)) = k :=
          filter_eq_self.2 fun c hc => by simp [hk c hc]
        rw [(unloadModule_split env hfind heq ha hl).2, heq, filter_append, filter_cons, hkeep hl,
          hkeep fun c hc => hother c (mem_append_right _ hc), ha]
        cases env.unloadModule a <;> rfl
    rw [foldl_cons, ih, hone, filter_filter]
    refine filter_congr fun a _ => ?_
    rw [any_cons]
    cases env.unloadModule a <;> simp [Bool.and_comm]

theorem findModule_congr (ms : CModules) {s t : CString} (h : s.equals t = true) :
    ms.findModule s = ms.findModule t := by
  rw [findModule, findModule]
  congr 1
  funext pMod
  exact Bool.eq_iff_iff.2 (by rw [equals_congr h])

theorem findModule_isSome (ha : a ∈ ms.vMods) : ms.findModule a.sModName = some a :=
  findModule_eq_some ha (equals_refl _)

theorem find_namesMod (ms : CModules) (a : CModule) :
    ms.vMods.find? (fun b => namesMod b a) = ms.findModule a.sModName := by
  rw [findModule]
  congr 1
  funext b
  exact equals_comm _ _

theorem vMods_clone_merge (vCurMods vNewMods : CModules) :
    (vCurMods.clone env vNewMods).vMods =
      (Merge.merge namesMod (placeMod env) (freshMod env) vCurMods.vMods vNewMods.vMods).filter fun a =>
        !(env.unloadModule a && (vNewMods.findModule a.sModName).isNone) := by
  rw [clone, vMods_unloadModules, ← vMods_mergeModules]
  refine filter_congr fun a ha => ?_
  congr 2
  rw [Bool.eq_iff_iff, any_eq_true]
  constructor
  · rintro ⟨sMod, hmem, hsame⟩
    rw [OrdSet.mem_toList, OrdSet.mem_ofList] at hmem
    obtain ⟨a', ha', rfl⟩ := mem_map.1 hmem
    rw [← findModule_congr _ hsame]
    exact (mem_filter.1 ha').2
  · intro hnone
    refine ⟨a.sModName, ?_, equals_refl _⟩
    rw [OrdSet.mem_toList, OrdSet.mem_ofList]
    exact mem_map.2 ⟨a, mem_filter.2 ⟨ha, hnone⟩, rfl⟩

/-- **The modules of the clone:** those that stay or cannot be unloaded, and those that are loaded. -/
theorem vMods_clone (vCurMods vNewMods : CModules) :
    (vCurMods.clone env vNewMods).vMods =
      vCurMods.vMods.filter (fun a => Stays vNewMods a ∨ env.unloadModule a = false) ++
        vNewMods.vMods.filterMap fun b =>
          if ∃ a ∈ vCurMods.vMods, b.sModName.equals a.sModName = true ∧
            (b.sArgs = a.sArgs ∨ env.unloadModule a = false)
          then none else freshMod env b := by
  have hplace (a b a' : CModule) (h : placeMod env a b = some a') (c : CModule) : namesMod c a' = namesMod c a := by
    rw [placeMod_some h]
  have hcur : vCurMods.vMods.Pairwise fun a a' => ∀ b, ¬(namesMod b a = true ∧ namesMod b a' = true) :=
    vCurMods.distinct.imp fun h b hb => h (sameMod_of_names hb.1 hb.2)
  have hnew : vNewMods.vMods.Pairwise fun b b' => (∀ a, ¬(namesMod b a = true ∧ namesMod b' a = true)) ∧
      ∀ a, freshMod env b = some a → ¬namesMod b' a = true := by
    refine vNewMods.distinct.imp fun {b b'} h => ⟨fun a hb => ?_, fun a ha hb => ?_⟩
    · exact h (equals_trans hb.1 ((equals_comm _ _).trans hb.2))
    · rw [namesMod, freshMod_some ha] at hb
      exact h ((equals_comm _ _).trans hb)
  rw [vMods_clone_merge, Merge.merge_eq hplace hcur hnew, filter_append, filter_filterMap, filter_filterMap]
  congr 1
  · rw [← filterMap_eq_filter]
    refine filterMap_congr fun a ha => ?_
    rw [Merge.stay, find_namesMod]
    rcases hfind : vNewMods.findModule a.sModName with _ | b
    · have hno : ¬Stays vNewMods a := by
        rintro ⟨b, hb, hsame, -⟩
        exact not_equals_of_findModule hfind b hb ((equals_comm _ _).trans hsame)
      cases hunload : env.unloadModule a <;> simp [Option.filter, Option.guard, hno, hfind, hunload]
    · obtain ⟨hb, hsame⟩ := findModule_some hfind
      rw [equals_comm] at hsame
      have hstays : Stays vNewMods a ↔ b.sArgs = a.sArgs := by
        refine ⟨?_, fun hargs => ⟨b, hb, hsame, hargs⟩⟩
        rintro ⟨b', hb', hsame', hargs⟩
        rwa [vNewMods.distinct.eq_of_rel sameMod_symm hb hb' (equals_trans hsame ((equals_comm _ _).trans hsame'))]
      dsimp only
      rw [placeMod, Option.guard]
      by_cases hkeep : b.sArgs = a.sArgs ∨ env.unloadModule a = false
      · rw [if_pos hkeep, if_pos (by simpa [hstays] using hkeep)]
        simp [hfind]
      · rw [if_neg hkeep, if_neg (by simpa [hstays] using hkeep)]
        rfl
  · refine filterMap_congr fun b hb => ?_
    -- what is loaded has a name of `vNewMods`, so the second loop leaves it
    have hstay : (freshMod env b).filter (fun a => !(env.unloadModule a && (vNewMods.findModule a.sModName).isNone)) =
        freshMod env b := by
      rcases hfresh : freshMod env b with _ | a
      · rfl
      · simp [freshMod_some hfresh, findModule_isSome hb]
    have hfindMod : vCurMods.vMods.find? (namesMod b) = vCurMods.findModule b.sModName := rfl
    rw [Merge.added, hfindMod]
    rcases hfind : vCurMods.findModule b.sModName with _ | a
    · have hno : ¬∃ a ∈ vCurMods.vMods,
          b.sModName.equals a.sModName = true ∧ (b.sArgs = a.sArgs ∨ env.unloadModule a = false) := by
        rintro ⟨a, ha, hsame, -⟩
        exact not_equals_of_findModule hfind a ha hsame
      rw [if_neg hno]
      exact hstay
    · obtain ⟨ha, hsame⟩ := findModule_some hfind
      have hone : (∃ a ∈ vCurMods.vMods,
          b.sModName.equals a.sModName = true ∧ (b.sArgs = a.sArgs ∨ env.unloadModule a = false)) ↔
            b.sArgs = a.sArgs ∨ env.unloadModule a = false := by
        refine ⟨?_, fun hor => ⟨a, ha, hsame, hor⟩⟩
        rintro ⟨a', ha', hsame', hor⟩
        rwa [vCurMods.distinct.eq_of_rel sameMod_symm ha ha' (sameMod_of_names hsame hsame')]
      dsimp only
      rw [placeMod]
      by_cases hkeep : b.sArgs = a.sArgs ∨ env.unloadModule a = false
      · rw [if_pos hkeep, if_pos (hone.2 hkeep)]
        rfl
      · rw [if_neg hkeep, if_neg (mt hone.1 hkeep)]
        exact hstay

theorem clone_of_kept {env : Env} {vCurMods vNewMods : CModules}
    (hgone : ∀ a ∈ vCurMods.vMods, ¬Stays vNewMods a → env.unloadModule a = true)
    (hloaded : ∀ b ∈ vNewMods.vMods, ¬Loaded vCurMods b → env.loadModule b.sModName b.sArgs = some b.sArgs) :
    (vCurMods.clone env vNewMods).vMods =
      vCurMods.vMods.filter (fun a => Stays vNewMods a) ++ vNewMods.vMods.filter fun b => ¬Loaded vCurMods b := by
  rw [vMods_clone]
  congr 1
  · refine filter_congr fun a ha => ?_
    by_cases hstays : Stays vNewMods a
    · simp [hstays]
    · simp [hstays, hgone a ha hstays]
  · rw [← filterMap_eq_filter]
    refine filterMap_congr fun b hb => ?_
    by_cases hloadedb : Loaded vCurMods b
    · obtain ⟨a, ha, hsame, hargs⟩ := hloadedb
      rw [if_pos ⟨a, ha, hsame, .inl hargs⟩, Option.guard, if_neg (by simpa using ⟨a, ha, hsame, hargs⟩)]
    · have hno : ¬∃ a ∈ vCurMods.vMods,
          b.sModName.equals a.sModName = true ∧ (b.sArgs = a.sArgs ∨ env.unloadModule a = false) := by
        rintro ⟨a, ha, hsame, hargs | hunload⟩
        · exact hloadedb ⟨a, ha, hsame, hargs⟩
        · -- `a` has other arguments, so it was unloaded
          refine absurd (hgone a ha fun ⟨b', hb', hsame', hargs⟩ => hloadedb ?_) (by simp [hunload])
          rw [vNewMods.distinct.eq_of_rel sameMod_symm hb hb' (equals_trans hsame ((equals_comm _ _).trans hsame'))]
          exact ⟨a, ha, hsame', hargs⟩
      have hfresh : freshMod env b = some b := by
        rw [freshMod, hloaded b hb hloadedb]
        rfl
      rw [if_neg hno, hfresh, Option.guard, if_pos (by simpa using hloadedb)]

/-- **The modules are kept** if and only if the clone has those of the network. -/
theorem clone_eq_iff (vCurMods vNewMods : CModules) :
    (vCurMods.clone env vNewMods).vMods = vNewMods.vMods ↔ ModulesKept env vCurMods vNewMods := by
  constructor
  · intro h
    have hgone : ∀ a ∈ vCurMods.vMods, ¬Stays vNewMods a → env.unloadModule a = true := by
      intro a ha hstays
      by_contra hunload
      have hmem : a ∈ (vCurMods.clone env vNewMods).vMods := by
        rw [vMods_clone]
        exact mem_append_left _ (mem_filter.2 ⟨ha, by simpa using Or.inr hunload⟩)
      exact hstays ⟨a, h ▸ hmem, equals_refl _, rfl⟩
    have hloaded : ∀ b ∈ vNewMods.vMods, ¬Loaded vCurMods b → env.loadModule b.sModName b.sArgs = some b.sArgs := by
      intro b hb hno
      have hmem : b ∈ (vCurMods.clone env vNewMods).vMods := h ▸ hb
      rw [vMods_clone, mem_append, mem_filter, mem_filterMap] at hmem
      rcases hmem with ⟨hcur, -⟩ | ⟨b', hb', hfresh⟩
      · exact absurd ⟨b, hcur, equals_refl _, rfl⟩ hno
      · split_ifs at hfresh
        have hsame : SameMod b b' := by
          rw [SameMod, freshMod_some hfresh]
          exact equals_refl _
        rw [← vNewMods.distinct.eq_of_rel sameMod_symm hb hb' hsame] at hfresh
        obtain ⟨sArgs, hload, heq⟩ := Option.map_eq_some_iff.1 hfresh
        rw [hload, ← congrArg CModule.sArgs heq]
    refine ⟨hgone, hloaded, ?_⟩
    rw [← map_append, ← clone_of_kept hgone hloaded, h]
  · intro h
    rw [clone_of_kept h.gone h.loaded]
    refine eq_of_map_eq (f := CModule.sModName) (fun a ha b hb hname => ?_) (by rw [map_append, h.order])
    have hsame : SameMod a b := by
      rw [SameMod, hname]
      exact equals_refl _
    rcases mem_append.1 ha with ha | ha
    · obtain ⟨b', hb', hsame', hargs⟩ := of_decide_eq_true (mem_filter.1 ha).2
      rw [← vNewMods.distinct.eq_of_rel sameMod_symm hb' hb (equals_trans hsame' hsame)] at hname ⊢
      cases a
      cases b'
      cases hname
      cases hargs
      rfl
    · exact vNewMods.distinct.eq_of_rel sameMod_symm (mem_filter.1 ha).1 hb hsame

end CModules

/-! ## Channels -/

theorem sameChan_symm (c d : CChan) (h : SameChan c d) : SameChan d c := (equals_comm _ _).trans h

/-- the two names are the same -/
def namesChan (pNewChan pChan : CChan) : Bool := pNewChan.sName.equals pChan.sName

/-- what becomes of a channel that is there -/
def placeChan (pChan pNewChan : CChan) : Option CChan := some { pChan with bInConfig := pNewChan.bInConfig }

def freshChan (net : CIRCNetwork) (pNewChan : CChan) : Option CChan :=
  some (net.newChan pNewChan.sName pNewChan.bInConfig)

namespace CIRCNetwork

variable (env : Env) {net : CIRCNetwork} {sName : CString} {Network : CIRCNetwork}

theorem namesake_some {chan : CChan} (h : net.namesake sName = some chan) :
    chan ∈ net.vChans ∧ sName.equals chan.sName = true :=
  ⟨mem_of_find?_eq_some h, by simpa using find?_some h⟩

theorem namesake_none (h : net.namesake sName = none) :
    ∀ chan ∈ net.vChans, ¬sName.equals chan.sName = true := by
  intro chan hchan
  simpa using find?_eq_none.1 h chan hchan

theorem namesake_eq_some (hnet : Distinct SameChan net.vChans) {chan : CChan} (hchan : chan ∈ net.vChans)
    (hname : sName.equals chan.sName = true) : net.namesake sName = some chan := by
  cases hfind : net.namesake sName with
  | none => exact absurd hname (namesake_none hfind chan hchan)
  | some d =>
    obtain ⟨hd, hsame⟩ := namesake_some hfind
    rw [hnet.eq_of_rel sameChan_symm hchan hd (equals_trans ((equals_comm _ _).trans hname) hsame)]

theorem findChan_eq (net : CIRCNetwork) (h : Fits net.sStatusMsg sName) :
    net.findChan sName = net.vChans.findIdx? fun pChan => sName.equals pChan.sName := by
  rw [findChan]
  congr 1
  funext pChan
  rw [Bool.eq_iff_iff, equals_congr h]

theorem findChan_namesake (net : CIRCNetwork) (h : Fits net.sStatusMsg sName) :
    (net.findChan sName).bind (net.vChans[·]?) = net.namesake sName := by
  rw [findChan_eq net h, namesake, find?_eq_bind_findIdx?_getElem?]

theorem chanName_nil (net : CIRCNetwork) : net.chanName [] ≠ [] := by
  have htoken : CString.token [] 0 false 0x20 false = [] := by decide
  rw [chanName, htoken]
  exact cons_ne_nil _ _

theorem mergeChan_eq (net : CIRCNetwork) {b : CChan} (hfits : Fits net.sStatusMsg b.sName)
    (htaken : net.chanName b.sName = b.sName) :
    net.mergeChan b = { net with vChans := Merge.insertInto namesChan placeChan (freshChan net) b net.vChans } := by
  have hne : b.sName ≠ [] := by
    intro hnil
    rw [hnil] at htaken
    exact chanName_nil net htaken
  rw [mergeChan]
  cases hfind : net.findChan b.sName with
  | none =>
    have hnone : ∀ a ∈ net.vChans, ¬namesChan b a = true := by
      rw [findChan_eq net hfits, findIdx?_eq_none_iff] at hfind
      intro a ha
      simpa [namesChan] using hfind a ha
    rw [Merge.insertInto_none hnone]
    dsimp only
    rw [addChan, if_neg (by simp [hne, hfind])]
    rfl
  | some pChan =>
    rw [findChan_eq net hfits, findIdx?_eq_some_iff_getElem] at hfind
    obtain ⟨hlt, hp, hbefore⟩ := hfind
    have hsplit : net.vChans = net.vChans.take pChan ++ net.vChans[pChan] :: net.vChans.drop (pChan + 1) := by simp
    have hl : ∀ c ∈ net.vChans.take pChan, ¬namesChan b c = true := by
      intro c hc
      obtain ⟨j, hj, rfl⟩ := mem_take_iff_getElem.1 hc
      exact hbefore j (lt_min_iff.1 hj).1
    have hins := @Merge.insertInto_some _ _ namesChan placeChan (freshChan net) b _
      (net.vChans.drop (pChan + 1)) _ hl hp
    rw [← hsplit] at hins
    rw [hins]
    dsimp only
    rw [setInConfig, modify_eq_take_cons_drop hlt]
    simp [placeChan]

theorem mergeChans_eq (net : CIRCNetwork) {vChans : List CChan} (hfits : ∀ b ∈ vChans, Fits net.sStatusMsg b.sName)
    (htaken : ∀ b ∈ vChans, net.chanName b.sName = b.sName) :
    vChans.foldl mergeChan net =
      { net with vChans := Merge.merge namesChan placeChan (freshChan net) net.vChans vChans } := by
  induction vChans generalizing net with
  | nil => rfl
  | cons b vChans ih =>
    obtain ⟨hfit, hfits⟩ := forall_mem_cons.1 hfits
    obtain ⟨htake, htaken⟩ := forall_mem_cons.1 htaken
    rw [foldl_cons, mergeChan_eq net hfit htake]
    exact ih _ hfits htaken

/-- what a channel that is there is in the clone -/
def oldChan (Network : CIRCNetwork) (pChan : CChan) : CChan :=
  match Network.namesake pChan.sName with
  | none => { pChan with bInConfig := false }
  | some pNewChan => { pChan.clone pNewChan with bInConfig := pNewChan.bInConfig }

theorem vChans_clone (h : Compatible net Network) :
    (net.clone env Network).vChans =
      net.vChans.map (oldChan Network) ++
        (Network.vChans.filter fun b => (net.namesake b.sName).isNone).map fun b =>
          (net.newChan b.sName b.bInConfig).clone b := by
  have hplace (a b a' : CChan) (h : placeChan a b = some a') (c : CChan) : namesChan c a' = namesChan c a := by
    rw [← Option.some.inj h]
    rfl
  have hcur : net.vChans.Pairwise fun a a' => ∀ b, ¬(namesChan b a = true ∧ namesChan b a' = true) :=
    h.own.imp fun hne b hb => hne (equals_trans ((equals_comm _ _).trans hb.1) hb.2)
  have hname : ∀ b ∈ Network.vChans, ∀ a, freshChan net b = some a → a.sName = b.sName := by
    intro b hb a ha
    rw [← Option.some.inj ha]
    exact h.taken b hb
  have hnew : Network.vChans.Pairwise fun b b' => (∀ a, ¬(namesChan b a = true ∧ namesChan b' a = true)) ∧
      ∀ a, freshChan net b = some a → ¬namesChan b' a = true := by
    refine List.Pairwise.imp_of_mem (fun {b b'} hb hb' hne => ⟨fun a hba => ?_, fun a ha hba => ?_⟩) h.new
    · exact hne (equals_trans hba.1 ((equals_comm _ _).trans hba.2))
    · rw [namesChan, hname b hb a ha] at hba
      exact hne ((equals_comm _ _).trans hba)
  have hmerge : (Network.vChans.foldl mergeChan net).vChans =
      net.vChans.filterMap (Merge.stay namesChan placeChan Network.vChans) ++
        Network.vChans.filterMap (Merge.added namesChan placeChan (freshChan net) net.vChans) := by
    rw [mergeChans_eq net h.fits h.taken]
    exact Merge.merge_eq hplace hcur hnew
  rw [clone]
  dsimp only
  rw [hmerge, map_append, map_filterMap, map_filterMap]
  congr 1
  · rw [← filterMap_eq_map]
    refine filterMap_congr fun a ha => ?_
    have hfind : Network.vChans.find? (fun b => namesChan b a) = Network.namesake a.sName := by
      rw [namesake]
      congr 1
      funext b
      exact equals_comm _ _
    have hlook := findChan_namesake Network (h.fitsBoth a (mem_append_left _ ha))
    rw [Merge.stay, hfind]
    rcases hsake : Network.namesake a.sName with _ | b
    · rw [hsake] at hlook
      simp [cloneChan, hlook, oldChan, hsake]
    · rw [hsake] at hlook
      simp [cloneChan, hlook, oldChan, hsake, placeChan, CChan.clone]
  · rw [← filterMap_eq_map, filterMap_filter]
    refine filterMap_congr fun b hb => ?_
    have hfind : net.vChans.find? (namesChan b) = net.namesake b.sName := rfl
    have hlook := findChan_namesake Network (h.fitsBoth b (mem_append_right _ hb))
    rw [namesake_eq_some h.new hb (equals_refl _)] at hlook
    rw [Merge.added, hfind]
    rcases net.namesake b.sName with _ | a
    · have htaken : (net.newChan b.sName b.bInConfig).sName = b.sName := h.taken b hb
      simp [freshChan, cloneChan, htaken, hlook]
    · rfl

theorem oldChan_sName (Network : CIRCNetwork) (pChan : CChan) : (oldChan Network pChan).sName = pChan.sName := by
  rw [oldChan]
  split <;> rfl

theorem oldChan_bInConfig (Network : CIRCNetwork) (pChan : CChan) :
    (oldChan Network pChan).bInConfig = (Network.namesake pChan.sName).any (·.bInConfig) := by
  rw [oldChan]
  cases Network.namesake pChan.sName <;> rfl

theorem oldChan_eq (hnew : Distinct SameChan Network.vChans) {a b : CChan} (hb : b ∈ Network.vChans)
    (hname : a.sName.equals b.sName = true) : oldChan Network a = { a.clone b with bInConfig := b.bInConfig } := by
  rw [oldChan, namesake_eq_some hnew hb hname]

theorem configChans_clone (h : Compatible net Network) :
    (net.clone env Network).configChans =
      ((net.vChans.filter fun a => (Network.namesake a.sName).any (·.bInConfig)).map fun a =>
          (a.sName, (oldChan Network a).toConfig)) ++
        (Network.vChans.filter fun b => b.bInConfig && (net.namesake b.sName).isNone).map fun b =>
          (b.sName, ((net.newChan b.sName b.bInConfig).clone b).toConfig) := by
  rw [configChans, vChans_clone env h, filter_append, map_append, filter_map, filter_map, map_map, map_map,
    filter_filter]
  congr 1
  · refine congrArg₂ _ (funext fun a => ?_) (filter_congr fun a _ => oldChan_bInConfig Network a)
    exact congrArg (·, _) (oldChan_sName Network a)
  · refine map_congr_left fun b hb => ?_
    exact congrArg (·, _) (h.taken b (mem_filter.1 hb).1)

theorem distinct_clone (h : Compatible net Network) :
    Distinct SameChan (net.clone env Network).vChans := by
  have htaken {b : CChan} (hb : b ∈ Network.vChans) : (net.newChan b.sName b.bInConfig).sName = b.sName := h.taken b hb
  rw [vChans_clone env h, Distinct, pairwise_append, pairwise_map, pairwise_map]
  refine ⟨?_, ?_, fun c hc d hd hsame => ?_⟩
  · refine h.own.imp fun {c d} hne hsame => hne ?_
    rwa [SameChan, oldChan_sName, oldChan_sName] at hsame
  · refine List.Pairwise.imp_of_mem (fun {c d} hc hd hne hsame => hne ?_) (List.Pairwise.filter _ h.new)
    have hsame : (net.newChan c.sName c.bInConfig).sName.equals (net.newChan d.sName d.bInConfig).sName = true := hsame
    rwa [htaken (mem_filter.1 hc).1, htaken (mem_filter.1 hd).1] at hsame
  · obtain ⟨a, ha, rfl⟩ := mem_map.1 hc
    obtain ⟨b, hb, rfl⟩ := mem_map.1 hd
    obtain ⟨hmem, hnone⟩ := mem_filter.1 hb
    have hsame : (oldChan Network a).sName.equals (net.newChan b.sName b.bInConfig).sName = true := hsame
    rw [oldChan_sName, htaken hmem] at hsame
    exact namesake_none (Option.isNone_iff_eq_none.1 hnone) a ha ((equals_comm _ _).trans hsame)

theorem configChans_nodup (h : Distinct SameChan net.vChans) :
    (net.configChans.map Prod.fst).Nodup := by
  rw [configChans, map_map, List.Nodup, pairwise_map]
  refine (List.Pairwise.filter _ h).imp fun {c d} hne heq => hne ?_
  rw [SameChan, show c.sName = d.sName from heq]
  exact equals_refl _

theorem toConfig_clone_iff (a b : CChan) :
    (a.clone b).toConfig = b.toConfig ↔ (∀ o, b.has o = true) ∧ b.bDisabled = a.bDisabled := by
  have hbuffer := nonempty_flag_iff (uintText_ne b.uBufferCount.toNat) true b.bHasBufferCountSet
  have hauto := nonempty_flag_iff (boolText_ne b.bAutoClearChanBuffer) true b.bHasAutoClearChanBufferSet
  have htrue : lit "true" ≠ [] := by decide
  have hdisabled := nonempty_flag_iff htrue a.bDisabled b.bDisabled
  have hboth : (∀ o, b.has o = true) ↔ true = b.bHasBufferCountSet ∧ true = b.bHasAutoClearChanBufferSet := by
    refine ⟨fun h => ⟨(h .buffer).symm, (h .autoClearChanBuffer).symm⟩, fun h o => ?_⟩
    cases o
    · exact h.1.symm
    · exact h.2.symm
  rw [CChan.toConfig_eq_iff, hboth, eq_comm (a := b.bDisabled), ← hbuffer, ← hauto, ← hdisabled]
  simp only [CChan.table, CChan.clone, map_cons, map_nil, List.cons.injEq, and_true, and_assoc]
  exact ⟨fun ⟨h1, h2, _, h4⟩ => ⟨h1, h2, h4⟩, fun ⟨h1, h2, h4⟩ => ⟨h1, h2, rfl, h4⟩⟩

theorem block_iff (h : Compatible net Network) {b : CChan} (hb : b ∈ Network.vChans) {config : CConfig}
    (hblock : (b.sName, config) ∈ (net.clone env Network).configChans) :
    config = b.toConfig ↔ (∀ o, b.has o = true) ∧ b.bDisabled = (net.namesake b.sName).any (·.bDisabled) := by
  rw [configChans_clone env h, mem_append, mem_map, mem_map] at hblock
  rcases hblock with ⟨a, ha, heq⟩ | ⟨b', hb', heq⟩
  · obtain ⟨hname, rfl⟩ := Prod.mk.inj heq
    have hsame : a.sName.equals b.sName = true := by rw [hname, equals_refl]
    rw [oldChan_eq h.new hb hsame, namesake_eq_some h.own (mem_filter.1 ha).1 ((equals_comm _ _).trans hsame)]
    exact toConfig_clone_iff a b
  · obtain ⟨hname, rfl⟩ := Prod.mk.inj heq
    have hsame : SameChan b' b := by rw [SameChan, hname, equals_refl]
    obtain ⟨hmem, hcond⟩ := mem_filter.1 hb'
    obtain rfl := h.new.eq_of_rel sameChan_symm hmem hb hsame
    rw [Option.isNone_iff_eq_none.1 (Bool.and_eq_true_iff.1 hcond).2]
    exact toConfig_clone_iff _ b'

/-- **The channels are kept** if and only if the clone has those of the network in its config. -/
theorem configChans_eq_iff (h : Compatible net Network) :
    (net.clone env Network).configChans = Network.configChans ↔
      (net.clone env Network).configChans.map Prod.fst = Network.configChans.map Prod.fst ∧
        ∀ b ∈ Network.vChans, b.bInConfig = true →
          (∀ o, b.has o = true) ∧ b.bDisabled = (net.namesake b.sName).any (·.bDisabled) := by
  constructor
  · intro heq
    refine ⟨by rw [heq], fun b hb hconfig => ?_⟩
    have hblock : (b.sName, b.toConfig) ∈ (net.clone env Network).configChans := by
      rw [heq, configChans]
      exact mem_map.2 ⟨b, mem_filter.2 ⟨hb, hconfig⟩, rfl⟩
    exact (block_iff env h hb hblock).1 rfl
  · rintro ⟨hnames, hkept⟩
    refine eq_of_map_eq (f := Prod.fst) (fun e he e' he' hname => ?_) hnames
    obtain ⟨b, hb, rfl⟩ := mem_map.1 he'
    obtain ⟨sName, config⟩ := e
    cases hname
    obtain ⟨hmem, hconfig⟩ := mem_filter.1 hb
    rw [(block_iff env h hmem he).2 (hkept b hmem hconfig)]

theorem configChans_names (h : Compatible net Network) :
    (net.clone env Network).configChans.map Prod.fst =
      (net.vChans.filter fun a => (Network.namesake a.sName).any (·.bInConfig)).map CChan.sName ++
        (Network.vChans.filter fun b => b.bInConfig && (net.namesake b.sName).isNone).map CChan.sName := by
  rw [configChans_clone env h, map_append, map_map, map_map]
  rfl

theorem clone_has (a b : CChan) (o : Override) : (a.clone b).has o = true := by
  cases o <;> rfl

theorem exists_cloned (h : Compatible net Network) {b : CChan} (hb : b ∈ Network.vChans) :
    ∃ chan ∈ (net.clone env Network).vChans, chan.sName.equals b.sName = true ∧ ∀ o, chan.has o = true := by
  rw [vChans_clone env h]
  cases hsake : net.namesake b.sName with
  | none =>
    have hmem : b ∈ Network.vChans.filter fun b => (net.namesake b.sName).isNone :=
      mem_filter.2 ⟨hb, by rw [hsake]; rfl⟩
    refine ⟨_, mem_append_right _ (mem_map.2 ⟨b, hmem, rfl⟩), ?_, clone_has _ b⟩
    have hname : ((net.newChan b.sName b.bInConfig).clone b).sName = b.sName := h.taken b hb
    rw [hname, equals_refl]
  | some a =>
    obtain ⟨ha, hsame⟩ := namesake_some hsake
    have hsame : a.sName.equals b.sName = true := (equals_comm _ _).trans hsame
    refine ⟨_, mem_append_left _ (mem_map.2 ⟨a, ha, rfl⟩), ?_, fun o => ?_⟩
    · rwa [oldChan_sName]
    · rw [oldChan_eq h.new hb hsame]
      cases o <;> rfl

/-- **No override is added** if and only if each channel of the network has both, or had them in the clone already. -/
theorem overrides_iff (h : Compatible net Network) :
    (∀ o, ∀ chan ∈ (net.clone env Network).vChans, chan.has o = true →
        ∃ d ∈ net.vChans ++ Network.vChans, d.sName.equals chan.sName = true ∧ d.has o = true) ↔
      ∀ b ∈ Network.vChans, ∀ o,
        b.has o = true ∨ ∃ d ∈ net.vChans, d.sName.equals b.sName = true ∧ d.has o = true := by
  constructor
  · intro hall b hb o
    obtain ⟨chan, hchan, hname, hhas⟩ := exists_cloned env h hb
    obtain ⟨d, hd, hsame, hdo⟩ := hall o chan hchan (hhas o)
    have hsame : d.sName.equals b.sName = true := equals_trans hsame hname
    rcases mem_append.1 hd with hd | hd
    · exact .inr ⟨d, hd, hsame, hdo⟩
    · rw [h.new.eq_of_rel sameChan_symm hd hb hsame] at hdo
      exact .inl hdo
  · intro hall o chan hchan hhas
    -- the channel of `Network` and the one of the clone have one name
    have hboth {b : CChan} (hb : b ∈ Network.vChans) (hname : b.sName.equals chan.sName = true) :
        ∃ d ∈ net.vChans ++ Network.vChans, d.sName.equals chan.sName = true ∧ d.has o = true := by
      rcases hall b hb o with hbo | ⟨d, hd, hsame, hdo⟩
      · exact ⟨b, mem_append_right _ hb, hname, hbo⟩
      · exact ⟨d, mem_append_left _ hd, equals_trans hsame hname, hdo⟩
    rw [vChans_clone env h, mem_append, mem_map, mem_map] at hchan
    rcases hchan with ⟨a, ha, rfl⟩ | ⟨b, hb, rfl⟩
    · cases hsake : Network.namesake a.sName with
      | none =>
        rw [oldChan, hsake] at hhas ⊢
        refine ⟨a, mem_append_left _ ha, equals_refl _, ?_⟩
        cases o
        · exact hhas
        · exact hhas
      | some b =>
        obtain ⟨hb, hsame⟩ := namesake_some hsake
        refine hboth hb ?_
        rw [oldChan_sName]
        exact (equals_comm _ _).trans hsame
    · have hmem := (mem_filter.1 hb).1
      have hname : ((net.newChan b.sName b.bInConfig).clone b).sName = b.sName := h.taken b hmem
      refine hboth hmem ?_
      rw [hname, equals_refl]

/-! ## Configs -/

theorem table_clone_iff (net Network : CIRCNetwork) :
    ((((net.clone env Network).table env).map fun e => nonempty e.2) = (Network.table env).map fun e => nonempty e.2) ↔
      net.bTrustAllCerts = Network.bTrustAllCerts ∧ net.bTrustPKI = Network.bTrustPKI ∧
        (∀ setting, SettingKept net.user Network setting) ∧ EncodingKept env Network.sEncoding ∧
          ModulesKept env net.modules Network.modules := by
  have hsetting (setting : Setting) :
      nonempty [net.user.stored setting (Network.get setting)] = nonempty [Network.settings setting] ↔
        SettingKept net.user Network setting := by
    rw [← stored_eq_iff]
    exact ⟨nonempty_singleton_inj, fun h => by rw [h]⟩
  have hencoding : nonempty [env.fixupEncoding Network.sEncoding] = nonempty [Network.sEncoding] ↔
      EncodingKept env Network.sEncoding := by
    rw [← fixupEncoding_eq_iff]
    exact ⟨nonempty_singleton_inj, fun h => by rw [h]⟩
  have hbool (b b' : Bool) : nonempty [boolText b] = nonempty [boolText b'] ↔ b = b' :=
    ⟨fun h => boolText_inj (nonempty_singleton_inj h), fun h => by rw [h]⟩
  have hlines (vMods : List CModule) : nonempty (vMods.map CModule.line) = vMods.map CModule.line := by
    refine nonempty_eq_self fun sValue hvalue => ?_
    obtain ⟨pMod, -, rfl⟩ := mem_map.1 hvalue
    exact pMod.line_ne
  have hmodules : nonempty ((net.modules.clone env Network.modules).vMods.map CModule.line) =
      nonempty (Network.modules.vMods.map CModule.line) ↔ ModulesKept env net.modules Network.modules := by
    rw [← CModules.clone_eq_iff, hlines, hlines]
    exact ⟨map_line_inj, fun h => by rw [h]⟩
  have hservers : (cloneServers net.servers Network.servers).vServers = Network.servers.vServers :=
    vServers_cloneServers _ Network.named
  have hall : (∀ setting, SettingKept net.user Network setting) ↔
      SettingKept net.user Network .nick ∧ SettingKept net.user Network .altNick ∧ SettingKept net.user Network .ident ∧
        SettingKept net.user Network .realName ∧ SettingKept net.user Network .bindHost ∧
          SettingKept net.user Network .quitMsg := by
    refine ⟨fun h => ⟨h _, h _, h _, h _, h _, h _⟩, fun ⟨h1, h2, h3, h4, h5, h6⟩ setting => ?_⟩
    cases setting <;> assumption
  simp only [table, clone, map_cons, map_nil, List.cons.injEq, and_true, hsetting, hencoding, hbool, hmodules,
    hservers, true_and]
  rw [hall]
  tauto

/-- **Exactly what keeps the config.** `Clone` makes a network with the config of the other one and adds no override, if
nothing that it forgets or adds makes a difference; and where the names of the channels are found as they should be, only
then. -/
theorem clone_same_iff (env : Env) (net Network : CIRCNetwork) :
    (Kept env net Network → Cloned env net Network) ∧
      (Compatible net Network → Cloned env net Network → Kept env net Network) := by
  have hconfig (h : Compatible net Network) :
      (net.clone env Network).toConfig env = Network.toConfig env ↔
        ((((net.clone env Network).table env).map fun e => nonempty e.2) =
          (Network.table env).map fun e => nonempty e.2) ∧
          (net.clone env Network).configChans = Network.configChans :=
    toConfig_eq_iff env (configChans_nodup (distinct_clone env h)) (configChans_nodup h.new)
  have hnames : Network.configChans.map Prod.fst = (Network.vChans.filter (·.bInConfig)).map CChan.sName := by
    rw [configChans, map_map]
    rfl
  constructor
  · intro h
    have hcompat := h.toCompatible
    refine ⟨(hconfig hcompat).2 ⟨?_, ?_⟩, (overrides_iff env hcompat).2 h.chans.notAdded⟩
    · exact (table_clone_iff env net Network).2 ⟨h.trustAllCerts, h.trustPKI, h.settings, h.encoding, h.modules⟩
    · refine (configChans_eq_iff env hcompat).2
        ⟨?_, fun b hb hin => ⟨h.chans.overrides b hb hin, h.chans.disabled b hb hin⟩⟩
      rw [configChans_names env hcompat, hnames, h.chans.order]
  · intro hcompat h
    obtain ⟨htable, hchans⟩ := (hconfig hcompat).1 h.config
    obtain ⟨hall, hpki, hsettings, hencoding, hmodules⟩ := (table_clone_iff env net Network).1 htable
    obtain ⟨horder, hblocks⟩ := (configChans_eq_iff env hcompat).1 hchans
    rw [configChans_names env hcompat, hnames] at horder
    have hkept : ChansKept net Network :=
      ⟨fun b hb hin => (hblocks b hb hin).1, (overrides_iff env hcompat).1 h.overrides,
        fun b hb hin => (hblocks b hb hin).2,
        horder⟩
    exact ⟨hcompat, hall, hpki, hsettings, hencoding, hmodules, hkept⟩

/-- a user with the default settings -/
def sampleUser : CUser := ⟨lit "user", fun _ => [], 50, true⟩

/-- no encoding is forced, modules can be loaded and unloaded, and the only rate is 2 -/
def sampleEnv : Env := ⟨false, fun _ => true, fun _ => lit "2.00", fun _ sArgs => some sArgs, fun _ => true⟩

/-- a network with a nick, a server, a module and a channel with overrides of its own -/
def sampleNetwork : CIRCNetwork :=
  { new sampleUser with
    settings := fun setting => if setting = .nick then lit "nick" else []
    servers := ServerList.initial.addServer (CServer.new (lit "irc") 6697 [] true false)
    named := named_addServer (fun _ h => absurd h List.not_mem_nil) _
    modules := CModules.empty.loadModule sampleEnv (lit "perform") (lit "MODE nick +x")
    vChans := [⟨lit "#znc", lit "key", [], true, true, false, true, 500, true, false⟩] }

theorem clone_same_sample : Cloned sampleEnv (new sampleUser) sampleNetwork ∧
    Kept sampleEnv (new sampleUser) sampleNetwork := by
  have hcompat : Compatible (new sampleUser) sampleNetwork := by
    refine ⟨?_, ?_, ?_, ?_, ?_⟩ <;> decide
  have hchans : ChansKept (new sampleUser) sampleNetwork := by
    have hhas : ∀ chan ∈ sampleNetwork.vChans, ∀ o, chan.has o = true := by
      intro chan hchan o
      rw [mem_singleton.1 hchan]
      cases o <;> rfl
    refine ⟨fun chan hchan _ => hhas chan hchan, fun chan hchan o => .inl (hhas chan hchan o), ?_,
      ?_⟩ <;> decide
  have hmodules : ModulesKept sampleEnv CModules.empty sampleNetwork.modules := by
    refine ⟨?_, ?_, ?_⟩ <;> decide
  have hsettings (setting : Setting) : SettingKept sampleUser sampleNetwork setting := by
    rw [SettingKept]
    cases setting <;> decide
  have hkept : Kept sampleEnv (new sampleUser) sampleNetwork := ⟨hcompat, rfl, rfl, hsettings, nofun, hmodules, hchans⟩
  have hcloned := (clone_same_iff sampleEnv (new sampleUser) sampleNetwork).1 hkept
  exact ⟨hcloned, (clone_same_iff sampleEnv (new sampleUser) sampleNetwork).2 hcompat hcloned⟩

/-- **A clone with another config:** a network with one channel gets two overrides, and one that trusts all certificates
does so no more. -/
theorem clone_adds :
    let joined := (new sampleUser).addChan (lit "#znc") true
    let trusting := { new sampleUser with bTrustAllCerts := true }
    (copy sampleEnv sampleUser joined).toConfig sampleEnv ≠ joined.toConfig sampleEnv ∧
      (∃ chan ∈ (copy sampleEnv sampleUser joined).vChans, chan.has .buffer = true ∧
        ∀ d ∈ joined.vChans, d.has .buffer = false) ∧
      (copy sampleEnv sampleUser trusting).toConfig sampleEnv ≠ trusting.toConfig sampleEnv := by
  decide

end CIRCNetwork

end ZNC.NetworkClone
