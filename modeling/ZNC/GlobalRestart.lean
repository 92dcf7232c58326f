/-
The global configuration after a restart: `WriteConfig` and `LoadGlobal` of `src/znc.cpp`.

The state is what a new process has after some setters, modules and listeners; it is written, and a fresh process reads the file.
`ToConfig` of a listener puts a slash behind the URI prefix, and `AddListener` brings what it reads into the form with a slash at
the start and none at the end, which `AddTCPListener` and `AddUnixListener` do not ask for.

Results:
- `parseListener_reread`: what is read for a listener that was written;
- `restart_eq`: the state after a restart;
- `global_restart_iff`: it is the same exactly if there is a listener, and prefixes, modes, files and protocols are as they are read;
- `restart_prefix`: a prefix that begins without a slash.
-/
import ZNC.ConfigTables
import ZNC.Rehash

namespace ZNC.Global

open CString Config ConfigTables List NetworkClone
open NetworkClone (CModule CModules SameMod validateModuleName addTable look Full uintText boolText nonempty valuesOf blocks)
open SaveBuff (firstLine)
open UserConfig (Plain)

/-! ## Statement -/

/-- a call that changes the global state; one that fails leaves it as it is -/
inductive Call where
  | string (setting : StringSetting) (s : CString)
  | uint (setting : UIntSetting) (u : UInt32)
  | bool (setting : BoolSetting) (b : Bool)
  | addTrustedProxy (sHost : CString)
  | remTrustedProxy (sHost : CString)
  | clearTrustedProxies
  | addMotd (sMessage : CString)
  | clearMotd
  /-- the capabilities of the blacklists are those of the file that the process began with -/
  | disableClientCap (sCap : CString)
  | disableServerCap (sCap : CString)
  | loadModule (sModule sArgs : CString)
  | unloadModule (sModule : CString)
  | addTCPListener (uPort : UInt16) (sBindHost sURIPrefix : CString) (bSSL : Bool) (eAddr : EAddrType)
      (eAccept : EAcceptType)
  | addUnixListener (sPath sURIPrefix : CString) (bSSL : Bool) (eAccept : EAcceptType) (sGroup sMode : CString)
  | delListener (pListener : CListener)

/-- strings are on one line, without blanks around them -/
def Call.Plain : Call → Prop
  | .string _ s | .addTrustedProxy s | .addMotd s => UserConfig.Plain s
  | .disableClientCap sCap | .disableServerCap sCap => Tidy sCap
  | .loadModule _ sArgs => UserConfig.Plain sArgs
  | .addTCPListener _ sBindHost sURIPrefix .. => UserConfig.Plain sBindHost ∧ UserConfig.Plain sURIPrefix
  | .addUnixListener sPath sURIPrefix _ _ sGroup _ =>
    UserConfig.Plain sPath ∧ UserConfig.Plain sURIPrefix ∧ UserConfig.Plain sGroup
  | .uint .. | .bool .. | .remTrustedProxy _ | .clearTrustedProxies | .clearMotd | .unloadModule _ | .delListener _ => True

/-- what a call returned, or the state before it -/
def orElse (x : Except CString CZNC) (z : CZNC) : CZNC := x.toOption.getD z

namespace CZNC

/-- the setter of a string; a setting without a setter is what the file had -/
def setString (env : Env) (z : CZNC) (setting : StringSetting) (s : CString) : CZNC :=
  match setting with
  | .sslProtocols => (z.setSSLProtocols env s).getD z
  | .statusPrefix => z.setStatusPrefix s
  | setting => z.putString setting s

def setUInt (z : CZNC) (setting : UIntSetting) (u : UInt32) : CZNC :=
  match setting with
  | .connectDelay => z.setConnectDelay u
  | .connectThrottle => z.setServerThrottle u
  | setting => z.putUInt setting u

def call (env : Env) (z : CZNC) : Call → CZNC
  | .string setting s => z.setString env setting s
  | .uint setting u => z.setUInt setting u
  | .bool setting b => z.putBool setting b
  | .addTrustedProxy sHost => z.addTrustedProxy sHost
  | .remTrustedProxy sHost => { z with vsTrustedProxies := z.vsTrustedProxies.eraseP (sHost.equals ·) }
  | .clearTrustedProxies => { z with vsTrustedProxies := [] }
  | .addMotd sMessage => z.addMotd sMessage
  | .clearMotd => { z with vsMotd := [] }
  | .disableClientCap sCap => { z with ssClientCapBlacklist := z.ssClientCapBlacklist.insert sCap }
  | .disableServerCap sCap => { z with ssServerCapBlacklist := z.ssServerCapBlacklist.insert sCap }
  | .loadModule sModule sArgs =>
    orElse ((Global.loadModule env z.modules sModule sArgs).map fun modules => { z with modules := modules }) z
  | .unloadModule sModule => { z with modules := Global.unloadModule z.modules sModule }
  | .addTCPListener uPort sBindHost sURIPrefix bSSL eAddr eAccept =>
    orElse (z.addTCPListener env uPort sBindHost sURIPrefix bSSL eAddr eAccept) z
  | .addUnixListener sPath sURIPrefix bSSL eAccept sGroup sMode =>
    orElse (z.addUnixListener env sPath sURIPrefix bSSL eAccept sGroup sMode) z
  | .delListener pListener => { z with vpListeners := z.vpListeners.erase pListener }

/-- a new process after some calls -/
def run (env : Env) (calls : List Call) : CZNC := calls.foldl (call env) (.new env)

/-- a fresh process reads what this one has written -/
def restart (env : Env) (z : CZNC) : Except CString CZNC :=
  (readConfig ((z.toConfig env).write 0)).bind fun config => (CZNC.new env).loadGlobal env config

/-- `GetServerThrottle()`, and the numbers that are as they are stored -/
def getUInt (z : CZNC) (setting : UIntSetting) : UInt32 :=
  if setting = .connectThrottle then z.uints .connectThrottle / 1000 else z.uints setting

end CZNC

/-- the settings that have a getter of their own; of the key and of the parameters only the locations are known -/
def plainStrings : List StringSetting := [.skinName, .statusPrefix, .pidFile, .sslCertFile, .sslCiphers, .sslProtocols]

/-- **The getters of two states** return the same. -/
structure SameGetters (env : Env) (z z' : CZNC) : Prop where
  strings : ∀ setting ∈ plainStrings, z.strings setting = z'.strings setting
  pem : z.getPemLocation env = z'.getPemLocation env
  key : z.getKeyLocation env = z'.getKeyLocation env
  dhParam : z.getDHParamLocation env = z'.getDHParamLocation env
  protocols : z.uDisabledSSLProtocols = z'.uDisabledSSLProtocols
  uints : ∀ setting, z.getUInt setting = z'.getUInt setting
  bools : ∀ setting, z.bools setting = z'.bools setting
  motd : z.vsMotd = z'.vsMotd
  proxies : z.vsTrustedProxies = z'.vsTrustedProxies
  clientCaps : z.ssClientCapBlacklist = z'.ssClientCapBlacklist
  serverCaps : z.ssServerCapBlacklist = z'.ssServerCapBlacklist
  modules : ∀ pMod, pMod ∈ z.modules.vMods ↔ pMod ∈ z'.modules.vMods
  listeners : z.vpListeners = z'.vpListeners

/-- after a restart the state is as before -/
def CZNC.Kept (env : Env) (z : CZNC) : Prop := ∃ z', z.restart env = .ok z' ∧ SameGetters env z' z

/-- a listener whose values are as they are read -/
structure CListener.Lasts (pListener : CListener) : Prop where
  form : pListener.sURIPrefix = [] ∨
    pListener.sURIPrefix.head? = some (ch '/') ∧ pListener.sURIPrefix.getLast? ≠ some (ch '/')
  unix : ∀ sPath sGid iMode, pListener.address = .unix sPath sGid iMode → sPath ≠ [] ∧ -1 ≤ iMode

/-- a state that comes back -/
structure Lasting (env : Env) (z : CZNC) : Prop where
  certFile : env.location (z.strings .sslCertFile) = z.strings .sslCertFile
  keyFile : env.location (z.getKeyLocation env) = z.getKeyLocation env
  dhParamFile : env.location (z.getDHParamLocation env) = z.getDHParamLocation env
  /-- protocols that were set to nothing disable what they do from the start -/
  protocols : z.strings .sslProtocols = [] → z.uDisabledSSLProtocols = (CZNC.new env).uDisabledSSLProtocols
  some : z.vpListeners ≠ []
  listeners : ∀ pListener ∈ z.vpListeners, pListener.Lasts
  /-- the certificate is still there -/
  pem : ∀ pListener ∈ z.vpListeners, pListener.bSSL = true → env.pemFile (z.getPemLocation env) = true

/-- the paths of the process are on one line, and every socket can listen -/
structure Env.Sound (env : Env) : Prop where
  home : env.sHomePath ≠ [] ∧ ∀ c ∈ env.sHomePath, Single c
  zncPath : ∀ c ∈ env.sZNCPath, Single c
  listens : ∀ others address, env.listenError others address = none

/-! ## Texts -/

variable {s : CString}

theorem startsWith_slash : s.startsWith (lit "/") = true ↔ s.head? = some (ch '/') :=
  startsWith_byte (by decide) (by decide)

theorem endsWith_slash (h : (0 : UInt8) ∉ s) :
    s.endsWith (lit "/") = true ↔ s.getLast? = some (ch '/') := by
  have hslash : (CString.cStr (lit "/")).asLower = [ch '/'] := by decide
  induction s using List.reverseRecOn with
  | nil => decide
  | append_singleton s c _ =>
    have hright : CString.right (s ++ [c]) (lit "/").length = [c] := by
      rw [CString.right, length_append]
      exact drop_left' (by simp [lit])
    have hc : c ≠ 0 := fun heq => h (heq ▸ mem_append_right _ mem_cons_self)
    have hself : CString.cStr [c] = [c] := cStr_eq_self (by simpa using hc.symm)
    rw [endsWith, hright, equals, hslash, hself, getLast?_concat]
    simp [asLower, PathPrefix.tolower_slash]

theorem getLast_trimRight (s cs : CString) : ∀ c ∈ (s.trimRight_n cs).getLast?, c ∉ cs := by
  intro c hc
  rw [trimRight_n, getLast?_reverse] at hc
  have hnot := head?_dropWhile_not (fun c => decide (c ∈ cs)) s.reverse
  rw [Option.mem_def.1 hc] at hnot
  simpa using hnot

theorem trimRight_prefix (s cs : CString) : s.trimRight_n cs <+: s := by
  rw [trimRight_n, ← reverse_suffix, reverse_reverse]
  exact dropWhile_suffix _

/-- **A prefix that is written and read** is in the form of `AddListener`, or it is not the same. -/
theorem uriPrefix_iff (h : (0 : UInt8) ∉ s) :
    uriPrefix (s ++ lit "/") = s ↔ s = [] ∨ s.head? = some (ch '/') ∧ s.getLast? ≠ some (ch '/') := by
  have hslash : lit "/" = [ch '/'] := by decide
  have hlast (t : CString) (ht : (0 : UInt8) ∉ t) : (t ++ lit "/").endsWith (lit "/") = true := by
    refine (endsWith_slash ?_).2 (by rw [hslash, getLast?_concat])
    rw [hslash, mem_append]
    exact not_or.2 ⟨ht, by decide⟩
  -- what is read begins with a slash, and slashes at the end go
  obtain ⟨text, hread, hhead, hsame⟩ : ∃ text : CString, uriPrefix (s ++ lit "/") = text.trimRight_n (lit "/") ∧
      text.head? = some (ch '/') ∧ (s.head? = some (ch '/') → text = s ++ lit "/") := by
    rw [uriPrefix, if_neg (by simp [hslash])]
    by_cases hstart : (s ++ lit "/").startsWith (lit "/") = true
    · refine ⟨s ++ lit "/", ?_, startsWith_slash.1 hstart, fun _ => rfl⟩
      rw [if_pos hstart]
      exact if_pos (hlast s h)
    · refine ⟨lit "/" ++ (s ++ lit "/"), ?_, rfl, fun hs => absurd (startsWith_slash.2 ?_) hstart⟩
      · rw [if_neg hstart]
        refine if_pos ?_
        rw [← append_assoc]
        refine hlast _ ?_
        rw [mem_append]
        exact not_or.2 ⟨by decide, h⟩
      · rw [head?_append, hs]
        rfl
  rw [hread]
  constructor
  · intro heq
    rw [or_iff_not_imp_left]
    intro hne
    refine ⟨?_, fun hend => ?_⟩
    · obtain ⟨r, hr⟩ := trimRight_prefix text (lit "/")
      rw [heq] at hr
      rw [← hr, head?_append_of_ne_nil _ hne] at hhead
      exact hhead
    · rw [← heq] at hend
      exact getLast_trimRight text (lit "/") _ hend (by decide)
  · intro hform
    rcases hform with hnil | ⟨hs, hend⟩
    · rw [← hread, hnil]
      decide
    · rw [hsame hs]
      refine trimRight_append (fun c hc => hc) fun c hc hmem => hend ?_
      rw [hslash, mem_singleton] at hmem
      rw [← hmem]
      exact hc

/-! ### Octal numbers -/

theorem octText_eq (n : ℕ) :
    octText n = if n < 8 then [UInt8.ofNat (48 + n)] else octText (n / 8) ++ [UInt8.ofNat (48 + n % 8)] := by
  have hdigit : ∀ d < 8, (Nat.digitChar d).toUInt8 = UInt8.ofNat (48 + d) := by decide
  rw [octText, Nat.toDigits_eq_if (by decide)]
  split_ifs with hn
  · rw [map_singleton, hdigit n hn]
  · rw [map_append, map_singleton, hdigit _ (Nat.mod_lt n (by decide))]
    rfl

theorem toNat_octDigit {d : ℕ} (h : d < 8) : (UInt8.ofNat (48 + d)).toNat = 48 + d := by
  rw [UInt8.toNat_ofNat']
  omega

theorem mem_octText {n : ℕ} {b : UInt8} (h : b ∈ octText n) : 48 ≤ b.toNat ∧ b.toNat ≤ 55 := by
  induction n using Nat.strongRecOn with
  | _ n ih =>
    have hdigit {d : ℕ} (hd : d < 8) : 48 ≤ (UInt8.ofNat (48 + d)).toNat ∧ (UInt8.ofNat (48 + d)).toNat ≤ 55 := by
      rw [toNat_octDigit hd]
      omega
    rw [octText_eq] at h
    split_ifs at h with hn
    · rw [mem_singleton.1 h]
      exact hdigit hn
    · rcases mem_append.1 h with hrest | hlast
      · exact ih (n / 8) (by omega) hrest
      · rw [mem_singleton.1 hlast]
        exact hdigit (Nat.mod_lt n (by decide))

theorem foldl_octText (n : ℕ) : (octText n).foldl (fun (n : ℕ) c => 8 * n + (c.toNat - 48)) 0 = n := by
  induction n using Nat.strongRecOn with
  | _ n ih =>
    rw [octText_eq]
    split_ifs with hn
    · rw [foldl_cons, foldl_nil, toNat_octDigit hn]
      omega
    · rw [foldl_append, ih (n / 8) (by omega), foldl_cons, foldl_nil, toNat_octDigit (Nat.mod_lt n (by decide))]
      omega

theorem octText_ne (n : ℕ) : octText n ≠ [] := by
  rw [octText, Ne, map_eq_nil_iff]
  exact Nat.toDigits_ne_nil

/-- **A printed mode** is read back, up to the largest number. -/
theorem readOct_octText (n : ℕ) : readOct (octText n) = min (2 ^ 31 - 1) (n : ℤ) := by
  have hspace : (octText n).dropWhile isspace = octText n := by
    cases htext : octText n with
    | nil => rfl
    | cons c s =>
      refine dropWhile_cons_of_neg fun hsp => ?_
      obtain ⟨h1, h2⟩ := mem_octText (n := n) (b := c) (htext ▸ mem_cons_self)
      have hbytes : (0x20 : UInt8).toNat = 32 ∧ (0x0D : UInt8).toNat = 13 := ⟨rfl, rfl⟩
      simp only [isspace, Bool.or_eq_true, Bool.and_eq_true, decide_eq_true_eq, UInt8.le_iff_toNat_le] at hsp
      rcases hsp with rfl | hsp <;> omega
  have hhead {b : UInt8} (hb : b.toNat < 48) : (octText n).head? ≠ some b := by
    intro heq
    have hmem := mem_octText (mem_of_mem_head? heq)
    omega
  have hall : (octText n).takeWhile (fun c => ch '0' ≤ c && c ≤ ch '7') = octText n := by
    refine takeWhile_eq_self_iff.2 fun b hb => ?_
    have h := mem_octText hb
    have h48 : (ch '0').toNat = 48 := rfl
    have h55 : (ch '7').toNat = 55 := rfl
    simp only [Bool.and_eq_true, decide_eq_true_eq, UInt8.le_iff_toNat_le]
    omega
  have hminus : ((octText n).head? = some (ch '-')) = False := eq_false (hhead (by decide))
  have hplus : ((octText n).head? = some (ch '+')) = False := eq_false (hhead (by decide))
  unfold readOct
  simp only [hspace, hminus, hplus, or_self, if_false, hall, foldl_octText]
  omega

theorem modeOf_getMode_iff {iMode : ℤ} (hlow : -2 ^ 31 ≤ iMode) (hhigh : iMode < 2 ^ 31) :
    modeOf (getMode iMode) = iMode ↔ -1 ≤ iMode := by
  by_cases hnone : iMode = -1
  · subst hnone
    exact iff_of_true rfl le_rfl
  · rw [getMode, if_pos hnone, modeOf, if_neg (octText_ne _), readOct_octText]
    omega

/-! ## What the calls keep -/

def OneLine (s : CString) : Prop := ∀ c ∈ s, Single c

instance OneLine.decidable (s : CString) : Decidable (OneLine s) := List.decidableBAll _ s

theorem OneLine.nil : OneLine [] := fun _ hc => nomatch hc

theorem OneLine.noNul (h : OneLine s) : (0 : UInt8) ∉ s := fun hmem => (h 0 hmem).1 rfl

/-- a listener that was added -/
structure CListener.Added (env : Env) (pListener : CListener) : Prop where
  sURIPrefix : OneLine pListener.sURIPrefix
  bSSL : pListener.bSSL = true → env.bLibSSL = true
  tcp : ∀ eAddr uPort sBindHost, pListener.address = .tcp eAddr uPort sBindHost →
    OneLine sBindHost ∧ uPort ≠ 0 ∧ (eAddr = .ADDR_IPV6ONLY → env.bIPv6 = true)
  unix : ∀ sPath sGid iMode, pListener.address = .unix sPath sGid iMode →
    OneLine sPath ∧ OneLine sGid ∧ -2 ^ 31 ≤ iMode ∧ iMode < 2 ^ 31

/-- a state whose values are those of setters -/
structure WellSet (env : Env) (z : CZNC) : Prop where
  strings : ∀ setting, OneLine (z.strings setting)
  protocols : env.sslDisabled (z.strings .sslProtocols) = some z.uDisabledSSLProtocols ∨
    z.strings .sslProtocols = [] ∧ z.uDisabledSSLProtocols = (CZNC.new env).uDisabledSSLProtocols
  connectDelay : 1 ≤ z.uints .connectDelay
  motd : ∀ s ∈ z.vsMotd, s ≠ [] ∧ OneLine s
  proxies : ∀ s ∈ z.vsTrustedProxies, s ≠ [] ∧ OneLine s
  distinct : z.vsTrustedProxies.Pairwise fun s s' => ¬s.equals s' = true
  clientCaps : ∀ s ∈ z.ssClientCapBlacklist, s ≠ [] ∧ OneLine s
  serverCaps : ∀ s ∈ z.ssServerCapBlacklist, s ≠ [] ∧ OneLine s
  modules : ∀ pMod ∈ z.modules.vMods, Plain pMod.sArgs ∧ env.loadError pMod.sModName pMod.sArgs = none
  listeners : ∀ pListener ∈ z.vpListeners, pListener.Added env

theorem WellSet.new {env : Env} (henv : env.Sound) : WellSet env (.new env) where
  strings setting := by
    cases setting
    case sslCertFile =>
      intro c hc
      have hfile : OneLine (lit "/znc.pem") := by decide
      rcases mem_append.1 hc with hc | hc
      · exact henv.zncPath c hc
      · exact hfile c hc
    all_goals exact OneLine.nil
  protocols := .inr ⟨rfl, rfl⟩
  connectDelay := by
    show (1 : UInt32) ≤ 5
    decide
  motd _ hs := nomatch hs
  proxies _ hs := nomatch hs
  distinct := List.Pairwise.nil
  clientCaps s hs := absurd hs (OrdSet.not_mem_empty s)
  serverCaps s hs := absurd hs (OrdSet.not_mem_empty s)
  modules _ hmod := nomatch hmod
  listeners _ hListener := nomatch hListener

section Calls

variable {env : Env} {z : CZNC}

theorem strings_putString_of_ne (z : CZNC) {setting other : StringSetting} (h : other ≠ setting) (s : CString) :
    (z.putString setting s).strings other = z.strings other := Function.update_of_ne h _ _

theorem WellSet.putString (h : WellSet env z) {setting : StringSetting}
    (hsetting : setting ≠ .sslProtocols) {s : CString}
    (hs : OneLine s) : WellSet env (z.putString setting s) := by
  refine { h with strings := fun other => ?_, protocols := ?_ }
  · by_cases heq : other = setting
    · rw [heq, CZNC.strings_putString]
      exact hs
    · rw [strings_putString_of_ne z heq]
      exact h.strings other
  · rw [strings_putString_of_ne z hsetting.symm]
    exact h.protocols

theorem WellSet.setString (h : WellSet env z) (setting : StringSetting) {s : CString} (hs : OneLine s) :
    WellSet env (z.setString env setting s) := by
  cases setting
  case sslProtocols =>
    rw [CZNC.setString, CZNC.setSSLProtocols]
    cases hu : env.sslDisabled s with
    | none => exact h
    | some u =>
      refine { h with strings := fun other => ?_, protocols := .inl ?_ }
      · by_cases heq : other = .sslProtocols
        · rw [heq]
          exact hs
        · have hother : (z.putSSLProtocols s u).strings other = z.strings other := strings_putString_of_ne z heq s
          exact hother ▸ h.strings other
      · exact hu
  case statusPrefix =>
    rw [CZNC.setString, CZNC.setStatusPrefix]
    refine h.putString (by decide) ?_
    split_ifs
    · decide
    · exact hs
  all_goals exact h.putString (by decide) hs

theorem WellSet.setUInt (h : WellSet env z) (setting : UIntSetting) (u : UInt32) :
    WellSet env (z.setUInt setting u) := by
  have hput {setting : UIntSetting} {u : UInt32} (hu : setting = .connectDelay → 1 ≤ u) :
    WellSet env (z.putUInt setting u) := by
    refine { h with connectDelay := ?_ }
    by_cases heq : setting = .connectDelay
    · subst heq
      rw [CZNC.uints_putUInt]
      exact hu rfl
    · have hother : (z.putUInt setting u).uints .connectDelay = z.uints .connectDelay :=
        Function.update_of_ne (Ne.symm heq) _ _
      rw [hother]
      exact h.connectDelay
  cases setting
  case connectDelay =>
    refine hput fun _ => ?_
    split_ifs with hlt
    · exact UInt32.le_refl 1
    · exact UInt32.not_lt.1 hlt
  all_goals exact hput fun heq => by cases heq

theorem WellSet.addProxy (h : WellSet env z) {sHost : CString} (hs : OneLine sHost) :
    WellSet env (z.addTrustedProxy sHost) := by
  rw [CZNC.addTrustedProxy]
  split_ifs with hno
  · exact h
  · obtain ⟨hne, hnew⟩ := not_or.1 hno
    refine { h with proxies := fun s hmem => ?_, distinct := ?_ }
    · rcases mem_append.1 hmem with hmem | hmem
      · exact h.proxies s hmem
      · rw [mem_singleton.1 hmem]
        exact ⟨hne, hs⟩
    · refine pairwise_append.2 ⟨h.distinct, pairwise_singleton _ _, fun s hmem s' hmem' heq => hnew ?_⟩
      rw [mem_singleton.1 hmem'] at heq
      exact any_eq_true.2 ⟨s, hmem, heq⟩

theorem WellSet.loadModule (h : WellSet env z) {sModule sArgs : CString} (hargs : Plain sArgs) {ms : CModules}
    (hload : Global.loadModule env z.modules sModule sArgs = .ok ms) : WellSet env { z with modules := ms } := by
  refine { h with modules := fun pMod hmod => ?_ }
  rw [mem_iff_held, @held_loadModule env z.modules (sModule, sArgs) ms hload] at hmod
  split_ifs at hmod with hname
  · obtain ⟨rfl, rfl⟩ := Prod.mk.inj (Option.some.inj hmod)
    exact ⟨hargs, ((@loadModule_ok_iff env z.modules (pMod.sModName, pMod.sArgs)).1 ⟨ms, hload⟩).2.2.2⟩
  · exact h.modules pMod (mem_iff_held.2 hmod)

theorem finish_ok {f : Except CString Unit} {pListener : CListener} {r : CZNC}
    (h : (f.bind fun _ => z.finishAddingListener env pListener) = .ok r) :
    f = .ok () ∧ r = { z with vpListeners := z.vpListeners ++ [pListener] } := by
  cases f with
  | error sError => cases h
  | ok u =>
    refine ⟨rfl, ?_⟩
    have hfinish : z.finishAddingListener env pListener = .ok r := h
    rw [CZNC.finishAddingListener] at hfinish
    split at hfinish
    · cases hfinish
    · exact (Except.ok.inj hfinish).symm

theorem check_ok_iff {bSSL : Bool} :
    z.checkSslAndPemFile env bSSL = .ok () ↔
      (bSSL = true → env.bLibSSL = true ∧ env.pemFile (z.getPemLocation env) = true) := by
  rw [CZNC.checkSslAndPemFile]
  cases env.bLibSSL
  · cases bSSL <;> simp
  · cases bSSL <;> simp

theorem WellSet.concat (h : WellSet env z) {pListener : CListener} (hadded : pListener.Added env) :
    WellSet env { z with vpListeners := z.vpListeners ++ [pListener] } := by
  refine { h with listeners := fun other hmem => ?_ }
  rcases mem_append.1 hmem with hmem | hmem
  · exact h.listeners other hmem
  · rw [mem_singleton.1 hmem]
    exact hadded

theorem WellSet.addTCP (h : WellSet env z) {uPort : UInt16} {sBindHost sURIPrefix : CString} {bSSL : Bool}
    {eAddr : EAddrType}
    {eAccept : EAcceptType} (hhost : OneLine sBindHost) (huri : OneLine sURIPrefix) {r : CZNC}
    (hr : z.addTCPListener env uPort sBindHost sURIPrefix bSSL eAddr eAccept = .ok r) : WellSet env r := by
  rw [CZNC.addTCPListener] at hr
  split_ifs at hr with hfamily hport
  · cases hcheck : z.checkSslAndPemFile env bSSL <;> rw [hcheck] at hr <;> cases hr
  obtain ⟨hcheck, rfl⟩ := finish_ok hr
  refine h.concat ⟨huri, fun hssl => (check_ok_iff.1 hcheck hssl).1, fun eAddr' uPort' sBindHost' heq => ?_,
    fun sPath sGid iMode heq => by cases heq⟩
  obtain ⟨rfl, rfl, rfl⟩ := Address.tcp.inj heq
  refine ⟨hhost, hport, fun hsix => ?_⟩
  simpa [hsix] using hfamily

theorem modeOf_bounds (sMode : CString) : -2 ^ 31 ≤ modeOf sMode ∧ modeOf sMode < 2 ^ 31 := by
  rw [modeOf]
  split_ifs
  · decide
  · rw [readOct]
    omega

theorem WellSet.addUnix (h : WellSet env z) {sPath sURIPrefix : CString} {bSSL : Bool} {eAccept : EAcceptType}
    {sGroup sMode : CString} (hpath : OneLine sPath) (huri : OneLine sURIPrefix) (hgroup : OneLine sGroup) {r : CZNC}
    (hr : z.addUnixListener env sPath sURIPrefix bSSL eAccept sGroup sMode = .ok r) : WellSet env r := by
  obtain ⟨hcheck, rfl⟩ := finish_ok hr
  refine h.concat ⟨huri, fun hssl => (check_ok_iff.1 hcheck hssl).1, fun eAddr uPort sBindHost heq => (by cases heq),
    fun sPath' sGid iMode heq => ?_⟩
  obtain ⟨rfl, rfl, rfl⟩ := Address.unix.inj heq
  exact ⟨hpath, hgroup, modeOf_bounds sMode⟩

theorem orElse_of {P : CZNC → Prop} {x : Except CString CZNC} (hz : P z) (hx : ∀ r, x = .ok r → P r) :
    P (orElse x z) := by
  cases x with
  | error sError => exact hz
  | ok r => exact hx r rfl

theorem oneLine_insert {ss : SCString} (h : ∀ s ∈ ss, s ≠ [] ∧ OneLine s) {sCap : CString} (hs : Tidy sCap) :
    ∀ s ∈ ss.insert sCap, s ≠ [] ∧ OneLine s := by
  intro s hmem
  rcases (OrdSet.mem_insert _ _ _).1 hmem with rfl | hmem
  · exact ⟨hs.ne, hs.single⟩
  · exact h s hmem

/-- **One call** keeps the rules of the setters. -/
theorem WellSet.call (h : WellSet env z) {call : Call} (hcall : call.Plain) : WellSet env (z.call env call) := by
  cases call with
  | string setting s => exact h.setString setting (Plain.single hcall)
  | uint setting u => exact h.setUInt setting u
  | bool setting b => exact { h with }
  | addTrustedProxy sHost => exact h.addProxy (Plain.single hcall)
  | remTrustedProxy sHost =>
    have hsub : (z.vsTrustedProxies.eraseP (sHost.equals ·)).Sublist z.vsTrustedProxies := eraseP_sublist
    exact { h with proxies := fun s hs => h.proxies s (hsub.subset hs), distinct := h.distinct.sublist hsub }
  | clearTrustedProxies =>
    exact { h with proxies := fun s hs => absurd hs List.not_mem_nil, distinct := List.Pairwise.nil }
  | addMotd sMessage =>
    rw [CZNC.call, CZNC.addMotd]
    split_ifs with hnil
    · exact h
    · refine { h with motd := fun s hs => ?_ }
      rcases mem_append.1 hs with hs | hs
      · exact h.motd s hs
      · rw [mem_singleton.1 hs]
        exact ⟨hnil, Plain.single hcall⟩
  | clearMotd => exact { h with motd := fun s hs => absurd hs List.not_mem_nil }
  | disableClientCap sCap => exact { h with clientCaps := oneLine_insert h.clientCaps hcall }
  | disableServerCap sCap => exact { h with serverCaps := oneLine_insert h.serverCaps hcall }
  | loadModule sModule sArgs =>
    refine orElse_of h fun r hr => ?_
    cases hload : Global.loadModule env z.modules sModule sArgs with
    | error sError =>
      rw [hload] at hr
      cases hr
    | ok ms =>
      rw [hload] at hr
      obtain rfl := Except.ok.inj hr
      exact h.loadModule hcall hload
  | unloadModule sModule => exact { h with modules := fun pMod hmod => h.modules pMod (mem_unloadModule.1 hmod).1 }
  | addTCPListener uPort sBindHost sURIPrefix bSSL eAddr eAccept =>
    exact orElse_of h fun r hr => h.addTCP hcall.1.single hcall.2.single hr
  | addUnixListener sPath sURIPrefix bSSL eAccept sGroup sMode =>
    exact orElse_of h fun r hr => h.addUnix hcall.1.single hcall.2.1.single hcall.2.2.single hr
  | delListener pListener =>
    exact { h with listeners := fun other hmem =>
                                              h.listeners other (mem_of_mem_erase hmem) }

theorem WellSet.run (henv : env.Sound) {calls : List Call} (hcalls : ∀ call ∈ calls, call.Plain) :
    WellSet env (CZNC.run env calls) := by
  have hall (z : CZNC) (h : WellSet env z) : WellSet env (calls.foldl (CZNC.call env) z) := by
    induction calls generalizing z with
    | nil => exact h
    | cons call calls ih =>
      obtain ⟨hcall, hcalls⟩ := forall_mem_cons.1 hcalls
      exact ih hcalls _ (h.call hcall)
  exact hall _ (WellSet.new henv)

end Calls

/-! ## What is written -/

theorem oneLine_append {t : CString} (hs : OneLine s) (ht : OneLine t) : OneLine (s ++ t) :=
  forall_mem_append.2 ⟨hs, ht⟩

theorem single_of_ne {c : UInt8} (h : ∀ d, d = 0 ∨ d = ch '\r' ∨ d = ch '\n' → c ≠ d) : Single c :=
  ⟨h 0 (by simp), h (ch '\r') (by simp), h (ch '\n') (by simp)⟩

theorem single_of_alnum {c : UInt8} (h : (isalnum c || c = ch '_') = true) : Single c := by
  refine single_of_ne fun d hd heq => ?_
  rw [heq] at h
  rcases hd with rfl | rfl | rfl <;> exact absurd h (by decide)

theorem oneLine_uintText (n : ℕ) : OneLine (uintText n) := fun c hc =>
  single_of_alnum (by rw [isalnum, isdigit_uintText hc, Bool.or_true, Bool.true_or])

theorem oneLine_boolText (b : Bool) : OneLine (boolText b) := by
  cases b <;> decide

theorem oneLine_octText (n : ℕ) : OneLine (octText n) := by
  intro c hc
  have hlow := (mem_octText hc).1
  refine single_of_ne fun d hd heq => ?_
  have hsmall : d.toNat < 48 := by
    rcases hd with rfl | rfl | rfl <;> decide
  rw [heq] at hlow
  omega

theorem oneLine_getMode (iMode : ℤ) : OneLine (getMode iMode) := by
  rw [getMode]
  split_ifs
  · exact oneLine_octText _
  · exact OneLine.nil

theorem firstLine_eq (h : OneLine s) : firstLine s = s :=
  token_zero_of_not_mem fun hmem => (h _ hmem).2.2 rfl

theorem oneLine_modName (pMod : CModule) : OneLine pMod.sModName := fun c hc =>
  single_of_alnum (all_eq_true.1 pMod.valid c hc)

/-! ### Files -/

theorem parentText_subset (s : CString) : PathPrefix.parentText s ⊆ s := by
  intro c hc
  rw [PathPrefix.parentText] at hc
  split_ifs at hc with hslash
  · have hmem := (drop_sublist _ _).subset (mem_reverse.1 hc)
    exact mem_reverse.1 ((dropWhile_sublist _).subset hmem)
  · exact hc

theorem oneLine_slash : OneLine (lit "/") := by decide

/-- **Where a path leads** is on one line. -/
theorem oneLine_changeDirLoop {sRet sCurDir : CString} (hret : OneLine sRet) (hcur : OneLine sCurDir) (hs : OneLine s) :
    OneLine (PathPrefix.changeDirLoop sRet sCurDir s) := by
  have henter {sRet sCurDir : CString} (hret : OneLine sRet) (hcur : OneLine sCurDir) :
      OneLine (PathPrefix.enterText sRet sCurDir) := by
    rw [PathPrefix.enterText]
    split_ifs
    · exact fun c hc => hret c (parentText_subset sRet hc)
    · exact oneLine_append (oneLine_append hret oneLine_slash) hcur
    · exact hret
  induction s generalizing sRet sCurDir with
  | nil => exact hret
  | cons c s ih =>
    obtain ⟨hc, hs⟩ := forall_mem_cons.1 hs
    rw [PathPrefix.changeDirLoop]
    split_ifs with hslash
    · exact ih (henter hret hcur) OneLine.nil hs
    · refine ih hret (oneLine_append hcur ?_) hs
      exact forall_mem_singleton.2 hc

theorem location_spec {env : Env} (henv : env.Sound) (hs : OneLine s) :
    OneLine (env.location s) ∧ env.location s ≠ [] := by
  have hhome : PathPrefix.homeDir env.sHomePath [] = env.sHomePath := if_pos rfl
  rw [Env.location, PathPrefix.changeDir, hhome]
  by_cases htilde : s = lit "~"
  · rw [if_pos htilde]
    exact ⟨henv.home.2, henv.home.1⟩
  · rw [if_neg htilde]
    dsimp only
    split_ifs with hhead hroot hroot
    all_goals first | exact ⟨oneLine_slash, by decide⟩ | refine
      ⟨oneLine_changeDirLoop OneLine.nil OneLine.nil (oneLine_append ?_ oneLine_slash), hroot⟩
    all_goals
      rw [PathPrefix.addDir, hhome]
      split_ifs
      · exact oneLine_append henv.home.2 fun c hc => hs c (mem_of_mem_drop hc)
      · exact hs

theorem locations_spec {env : Env} (henv : env.Sound) {z : CZNC} (h : WellSet env z) :
    (OneLine (z.getPemLocation env) ∧ z.getPemLocation env ≠ []) ∧
      (OneLine (z.getKeyLocation env) ∧ z.getKeyLocation env ≠ []) ∧
        OneLine (z.getDHParamLocation env) ∧ z.getDHParamLocation env ≠ [] := by
  refine ⟨location_spec henv (h.strings _), location_spec henv ?_, location_spec henv ?_⟩ <;>
  · split_ifs <;> exact h.strings _

/-! ### Tables -/

/-- the keys of `WriteConfig` -/
def tableKeys : List CString :=
  [lit "AnonIPLimit", lit "MaxBufferSize", lit "SSLCertFile", lit "SSLKeyFile", lit "SSLDHParamFile",
    lit "ProtectWebSessions", lit "HideVersion", lit "AuthOnlyViaModule", lit "Version", lit "ConfigWriteDelay",
    lit "ConnectDelay", lit "ServerThrottle", lit "PidFile", lit "Skin", lit "StatusPrefix", lit "SSLCiphers",
    lit "SSLProtocols", lit "DisableClientCap", lit "DisableServerCap", lit "Motd",
      lit "TrustedProxy", lit "LoadModule"]

/-- the keys of `ToConfig` of a listener -/
def listenerKeys (bTcp : Bool) : List CString :=
  [lit "URIPrefix", lit "SSL", lit "AllowIRC", lit "AllowWeb"] ++
    if bTcp then [lit "Host", lit "Port", lit "IPv4", lit "IPv6"] else [lit "Path", lit "Group", lit "Mode"]

theorem keys_table (env : Env) (z : CZNC) : (z.table env).map Prod.fst = tableKeys := rfl

theorem keys_listener (pListener : CListener) : ∃ bTcp, pListener.table.map Prod.fst = listenerKeys bTcp := by
  rw [CListener.table]
  cases pListener.address
  · exact ⟨true, rfl⟩
  · exact ⟨false, rfl⟩

/-- each value of a table is on one line -/
def Lines (table : List (CString × VCString)) : Prop := ∀ e ∈ table, ∀ sValue ∈ e.2, OneLine sValue

theorem Lines.nil : Lines [] := fun _ he => nomatch he

theorem Lines.cons {k : CString} {vs : VCString} (h : ∀ sValue ∈ vs, OneLine sValue) {table : List (CString × VCString)}
    (ht : Lines table) : Lines ((k, vs) :: table) := forall_mem_cons.2 ⟨h, ht⟩

theorem Lines.one {k : CString} (h : OneLine s) {table : List (CString × VCString)} (ht : Lines table) :
    Lines ((k, [s]) :: table) := Lines.cons (forall_mem_singleton.2 h) ht

theorem tableOk_of_keys {table : List (CString × VCString)} {ks : List CString} (hks : table.map Prod.fst = ks)
    (hgood : ∀ k ∈ ks, KeyOk k ∧ ∀ b ∈ k.head?, b ∉ marks) (hlower : (ks.map asLower).Nodup) (hlines : Lines table) :
    TableOk table := by
  subst hks
  rw [map_map] at hlower
  exact ⟨fun e he => hgood e.1 (mem_map_of_mem he), hlower, hlines⟩

theorem good_listenerKeys : ∀ bTcp, (∀ k ∈ listenerKeys bTcp, KeyOk k ∧ ∀ b ∈ k.head?, b ∉ marks) ∧
    ((listenerKeys bTcp).map asLower).Nodup := by
  intro bTcp
  exact ⟨keys_good (by cases bTcp <;> decide +kernel), by cases bTcp <;> decide +kernel⟩

theorem tableOk_listener {env : Env} {pListener : CListener} (h : pListener.Added env) : TableOk pListener.table := by
  obtain ⟨bTcp, hkeys⟩ := keys_listener pListener
  obtain ⟨hgood, hlower⟩ := good_listenerKeys bTcp
  refine tableOk_of_keys hkeys hgood hlower ?_
  have hcommon {table : List (CString × VCString)} (ht : Lines table) :=
    Lines.one (k := lit "URIPrefix") (oneLine_append h.sURIPrefix oneLine_slash)
    (Lines.one (k := lit "SSL") (oneLine_boolText pListener.bSSL)
      (Lines.one (k := lit "AllowIRC") (oneLine_boolText (pListener.eAcceptType ≠ .ACCEPT_HTTP))
        (Lines.one (k := lit "AllowWeb") (oneLine_boolText (pListener.eAcceptType ≠ .ACCEPT_IRC)) ht)))
  refine hcommon ?_
  cases haddress : pListener.address with
  | tcp eAddr uPort sBindHost =>
    have hhost := (h.tcp _ _ _ haddress).1
    exact Lines.one hhost (Lines.one (oneLine_uintText _) (Lines.one (oneLine_boolText _)
      (Lines.one (oneLine_boolText _) Lines.nil)))
  | unix sPath sGid iMode =>
    obtain ⟨hpath, hgid, -⟩ := h.unix _ _ _ haddress
    exact Lines.one hpath (Lines.one hgid (Lines.one (oneLine_getMode _) Lines.nil))

theorem map_firstLine {l : VCString} (h : ∀ s ∈ l, s ≠ [] ∧ OneLine s) : l.map firstLine = l := by
  refine (map_congr_left fun s hs => ?_).trans (map_id l)
  exact firstLine_eq (h s hs).2

/-- the line of a module -/
def modText (pMod : CModule) : CString := pMod.sModName ++ if pMod.sArgs = [] then [] else lit " " ++ pMod.sArgs

theorem good_tableKeys : (∀ k ∈ tableKeys, KeyOk k ∧ ∀ b ∈ k.head?, b ∉ marks) ∧
    (tableKeys.map asLower).Nodup := ⟨keys_good (by decide +kernel), by decide +kernel⟩

theorem tableOk_global {env : Env} (henv : env.Sound) {z : CZNC} (h : WellSet env z) : TableOk (z.table env) := by
  obtain ⟨hgood, hlower⟩ := good_tableKeys
  refine tableOk_of_keys (keys_table env z) hgood hlower ?_
  obtain ⟨⟨hpem, -⟩, ⟨hkey, -⟩, ⟨hdh, -⟩⟩ := locations_spec henv h
  have hfirst (setting : StringSetting) : OneLine (firstLine (z.strings setting)) := by
    rw [firstLine_eq (h.strings setting)]
    exact h.strings setting
  have hall {l : VCString} (hl : ∀ s ∈ l, s ≠ [] ∧ OneLine s) : ∀ sValue ∈ l.map firstLine, OneLine sValue := by
    rw [map_firstLine hl]
    exact fun s hs => (hl s hs).2
  have hversion : OneLine VERSION_STR := by decide
  have hmods : ∀ sValue ∈ z.modules.vMods.map fun pMod =>
    firstLine pMod.sModName ++ if pMod.sArgs = [] then [] else lit " " ++ firstLine pMod.sArgs,
      OneLine sValue := by
    intro sValue hvalue
    obtain ⟨pMod, hmod, rfl⟩ := mem_map.1 hvalue
    have hargs := (h.modules pMod hmod).1.single
    rw [firstLine_eq (oneLine_modName pMod), firstLine_eq hargs]
    refine oneLine_append (oneLine_modName pMod) ?_
    split_ifs
    · exact OneLine.nil
    · exact oneLine_append (by decide) hargs
  refine Lines.one (oneLine_uintText _)
    (Lines.one (oneLine_uintText _) (Lines.one hpem (Lines.one hkey (Lines.one hdh ?_))))
  refine Lines.one (oneLine_boolText _)
    (Lines.one (oneLine_boolText _) (Lines.one (oneLine_boolText _) (Lines.one hversion ?_)))
  refine Lines.one (oneLine_uintText _) (Lines.one (oneLine_uintText _) (Lines.one (oneLine_uintText _) ?_))
  refine Lines.one (hfirst _)
    (Lines.one (hfirst _) (Lines.one (hfirst _) (Lines.one (h.strings _) (Lines.one (h.strings _) ?_))))
  exact Lines.cons (hall h.clientCaps)
    (Lines.cons (hall h.serverCaps) (Lines.cons (hall h.motd) (Lines.cons (hall h.proxies)
    (Lines.cons hmods Lines.nil))))

/-! ## What is read -/

/-- the listeners under numbered names -/
def listenerTables (z : CZNC) : List (CString × List (CString × VCString)) :=
  z.vpListeners.mapIdx fun l pListener => (lit "listener" ++ uintText l, pListener.table)

theorem uintText_inj {n n' : ℕ} (h : uintText n = uintText n') : n = n' := by
  rw [← foldl_uintText n, h, foldl_uintText]

theorem names_listenerTables (z : CZNC) :
    (listenerTables z).map Prod.fst = (List.range z.vpListeners.length).map fun l => lit "listener" ++ uintText l := by
  refine ext_getElem? fun l => ?_
  rw [listenerTables, getElem?_map, getElem?_mapIdx, getElem?_map]
  by_cases hl : l < z.vpListeners.length
  · rw [getElem?_range hl, getElem?_eq_getElem hl]
    rfl
  · rw [getElem?_eq_none (not_lt.1 hl), getElem?_eq_none (by simpa using hl)]
    rfl

theorem tables_listenerTables (z : CZNC) : (listenerTables z).map Prod.snd = z.vpListeners.map CListener.table := by
  refine ext_getElem? fun l => ?_
  rw [listenerTables, getElem?_map, getElem?_mapIdx, getElem?_map, Option.map_map]
  rfl

set_option maxRecDepth 4000 in
theorem tidy_name (l : ℕ) : Tidy (lit "listener" ++ uintText l) := by
  refine UserConfig.tidy_of_bytes (by simp [lit]) fun c hc => UserConfig.not_blank_of_nameByte ?_
  have hword : ∀ c ∈ lit "listener", isalnum c = true := by decide
  rcases mem_append.1 hc with hc | hc
  · simp [hword c hc]
  · simp [isalnum, isdigit_uintText hc]

theorem nodup_names (z : CZNC) : ((listenerTables z).map Prod.fst).Nodup := by
  rw [names_listenerTables]
  exact nodup_range.map fun l l' heq => uintText_inj (append_cancel_left heq)

/-- **What is written** is one table with a block for each listener. -/
theorem toConfig_eq (env : Env) (z : CZNC) :
    z.toConfig env = tablesConfig (z.table env) (lit "Listener") (listenerTables z) := by
  have hblocks : z.listenerBlocks = (listenerTables z).map fun b => (b.1, addTable b.2 .empty) := by
    refine ext_getElem? fun l => ?_
    rw [CZNC.listenerBlocks, listenerTables, getElem?_mapIdx, getElem?_map, getElem?_mapIdx, Option.map_map]
    rfl
  have hnames : (([] ++ z.listenerBlocks).map Prod.fst).Nodup := by
    rw [nil_append, hblocks, map_map]
    exact nodup_names z
  have hadd := addSubConfigs_eq (lit "Listener") [] z.listenerBlocks .empty hnames
  rw [nil_append] at hadd
  have hnil : [] ∉ (z.table env).map Prod.fst := by
    rw [keys_table]
    exact fun hmem => (good_tableKeys.1 _ hmem).1.ne rfl
  have hstart : z.toConfig env = addTable (z.table env) ⟨.empty, blocks (lit "Listener") z.listenerBlocks⟩ :=
    congrArg (addTable (z.table env)) hadd
  obtain ⟨hfull, hsubs, hlook⟩ :=
    addTable_spec (z.table env) ⟨.empty, blocks (lit "Listener") z.listenerBlocks⟩
  obtain ⟨hfull', -, hlook'⟩ := addTable_spec (z.table env) .empty
  rw [hstart, tablesConfig, ← hblocks]
  exact ext_look (hfull full_empty) (hfull' full_empty)
    (fun k => (hlook hnil k).trans (hlook' hnil k).symm) hsubs

structure ReadBack (env : Env) (z : CZNC) (config : CConfig) : Prop where
  holds : Holds config ((z.table env).map fun e => (e.1.asLower, nonempty e.2))
  subConfigs : config.subConfigs = blocks (lit "listener") ((listenerTables z).map fun b => (b.1, reread b.2))

/-- **What is read** is what was written, with the version at the end. -/
theorem readConfig_toConfig {env : Env} (henv : env.Sound) {z : CZNC} (h : WellSet env z) :
    ∃ config, readConfig ((z.toConfig env).write 0) = .ok config ∧ ReadBack env z config := by
  have hlistener : (lit "Listener").asLower = lit "listener" := by decide
  have hbs : ∀ b ∈ listenerTables z, Tidy b.1 ∧ TableOk b.2 := by
    intro b hb
    obtain ⟨l, hl, rfl⟩ := mem_mapIdx.1 hb
    exact ⟨tidy_name l, tableOk_listener (h.listeners _ (getElem_mem hl))⟩
  have htag : TagOk (lit "Listener") := by decide
  have hparse := parse_tablesConfig (tableOk_global henv h) htag hbs (nodup_names z)
  rw [← toConfig_eq, hlistener] at hparse
  set config : CConfig := ⟨(reread (z.table env)).configEntries,
    blocks (lit "listener") ((listenerTables z).map fun b => (b.1, reread b.2))⟩
  have hholds : Holds config ((z.table env).map fun e => (e.1.asLower, nonempty e.2)) := by
    obtain ⟨hfull, hlook, hothers⟩ := (tableOk_global henv h).holds
    exact ⟨hfull, hlook, hothers⟩
  have hversion : look config (lit "version") = [VERSION_STR] := hholds.look _ (mem_of_getElem? (i := 8) rfl)
  have hone : (look config (lit "version")).length ≤ 1 := by
    rw [hversion]
    rfl
  obtain ⟨-, hwithout⟩ := UserConfig.findStringEntry_spec hholds.full hone
  set config' := ((config.findStringEntry (lit "version")).2.addKeyValuePair (lit "version") VERSION_STR)
  -- the version is taken out and put back
  have hsame (k : CString) : look config' k = look config k := by
    rw [look_addKeyValuePair _ (by decide), hwithout.look]
    by_cases hk : k = lit "version"
    · rw [if_pos hk, if_pos hk.symm, hk, hversion]
      decide
    · rw [if_neg hk, if_neg (Ne.symm hk), append_nil]
  refine ⟨config', ?_, ⟨⟨full_addKeyValuePair hwithout.full _ _, fun e he => ?_, fun k hk => ?_⟩, ?_⟩⟩
  · have htaken : (config.findStringEntry (lit "version")).1.getD [] = VERSION_STR := by
      rw [findStringEntry_fst, hversion]
      rfl
    rw [readConfig, hparse]
    show (if (config.findStringEntry (lit "version")).1.getD [] = [] then Except.error [] else
      Except.ok ((config.findStringEntry (lit "version")).2.addKeyValuePair (lit "version")
        ((config.findStringEntry (lit "version")).1.getD []))) = Except.ok config'
    rw [htaken, if_neg (by decide)]
  · exact (hsame e.1).trans (hholds.look e he)
  · exact (hsame k).trans (hholds.others k hk)
  · exact (subConfigs_addKeyValuePair _ _ _).trans hwithout.subConfigs

/-! ### Values -/

namespace CZNC

/-- what is written for a setting -/
def text (env : Env) (z : CZNC) : Setting → CString
  | .string .sslCertFile => z.getPemLocation env
  | .string .sslKeyFile => z.getKeyLocation env
  | .string .sslDHParamFile => z.getDHParamLocation env
  | .string setting => z.strings setting
  | .uint setting => uintText (z.getUInt setting).toNat
  | .bool setting => boolText (z.bools setting)

end CZNC

section Values

variable {env : Env} {z : CZNC} {config : CConfig}

theorem ReadBack.look_at (hread : ReadBack env z config) {i : ℕ} {k : CString} {vs : VCString}
    (hvalues : (z.table env)[i]?.map Prod.snd = some vs) (hkey : tableKeys[i]?.map asLower = some k) :
    look config k = nonempty vs := by
  obtain ⟨e, he, rfl⟩ := Option.map_eq_some_iff.1 hvalues
  rw [← keys_table env z, getElem?_map, he] at hkey
  rw [← Option.some.inj hkey]
  exact hread.holds.look (e.1.asLower, nonempty e.2) (mem_map_of_mem (mem_of_getElem? he))

theorem ReadBack.look_setting (h : WellSet env z) (hread : ReadBack env z config) (setting : Setting) :
    look config setting.key = nonempty [z.text env setting] := by
  have hline (setting : StringSetting) : nonempty [firstLine (z.strings setting)] = nonempty [z.strings setting] := by
    rw [firstLine_eq (h.strings setting)]
  cases setting with
  | string setting =>
    cases setting
    case skinName => exact (hread.look_at (i := 13) rfl (by decide)).trans (hline _)
    case statusPrefix => exact (hread.look_at (i := 14) rfl (by decide)).trans (hline _)
    case pidFile => exact (hread.look_at (i := 12) rfl (by decide)).trans (hline _)
    case sslCertFile => exact hread.look_at (i := 2) rfl (by decide)
    case sslKeyFile => exact hread.look_at (i := 3) rfl (by decide)
    case sslDHParamFile => exact hread.look_at (i := 4) rfl (by decide)
    case sslCiphers => exact hread.look_at (i := 15) rfl (by decide)
    case sslProtocols => exact hread.look_at (i := 16) rfl (by decide)
  | uint setting =>
    cases setting
    case connectDelay => exact hread.look_at (i := 10) rfl (by decide)
    case anonIPLimit => exact hread.look_at (i := 0) rfl (by decide)
    case maxBufferSize => exact hread.look_at (i := 1) rfl (by decide)
    case connectThrottle => exact hread.look_at (i := 11) rfl (by decide)
    case configWriteDelay => exact hread.look_at (i := 9) rfl (by decide)
  | bool setting =>
    cases setting
    case protectWebSessions => exact hread.look_at (i := 5) rfl (by decide)
    case hideVersion => exact hread.look_at (i := 6) rfl (by decide)
    case authOnlyViaModule => exact hread.look_at (i := 7) rfl (by decide)

theorem ReadBack.entryOf_eq (h : WellSet env z) (hread : ReadBack env z config) (setting : Setting) :
    entryOf config setting = if z.text env setting = [] then none else some (z.text env setting) := by
  rw [entryOf, findStringEntry_fst, hread.look_setting h]
  split_ifs with hnil
  · rw [hnil]
    rfl
  · rw [nonempty_singleton hnil]
    rfl

theorem ReadBack.lists (h : WellSet env z) (hread : ReadBack env z config) :
    motdOf config = z.vsMotd ∧ proxiesOf config = z.vsTrustedProxies ∧
      OrdSet.ofList (config.findStringVector (lit "disableclientcap")).1 = z.ssClientCapBlacklist ∧
        OrdSet.ofList (config.findStringVector (lit "disableservercap")).1 = z.ssServerCapBlacklist := by
  have hlist {k : CString} {l : VCString} (hl : ∀ s ∈ l, s ≠ [] ∧ OneLine s) {i : ℕ}
      (hvalues : (z.table env)[i]?.map Prod.snd = some (l.map firstLine)) (hkey : tableKeys[i]?.map asLower = some k) :
      (config.findStringVector k).1 = l := by
    have hlook := hread.look_at hvalues hkey
    rw [map_firstLine hl, nonempty_eq_self fun s hs => (hl s hs).1] at hlook
    rw [findStringVector_fst, hlook]
  have hset (ss : SCString) : OrdSet.ofList ss.toList = ss := OrdSet.ext_mem fun s => by simp
  refine ⟨?_, ?_, ?_, ?_⟩
  · rw [motdOf, hlist h.motd (i := 19) rfl (by decide), filter_eq_self]
    exact fun s hs => by simpa using (h.motd s hs).1
  · rw [proxiesOf, hlist h.proxies (i := 20) rfl (by decide)]
    have hall (l done : VCString) (hne : ∀ s ∈ l, s ≠ [])
      (hdistinct : (done ++ l).Pairwise fun s s' => ¬s.equals s' = true) :
        l.foldl addProxy done = done ++ l := by
      induction l generalizing done with
      | nil => exact (append_nil done).symm
      | cons s l ih =>
        obtain ⟨hs, hne⟩ := forall_mem_cons.1 hne
        have hnew : ¬(s = [] ∨ done.any (·.equals s) = true) := by
          rintro (hnil | hany)
          · exact hs hnil
          · obtain ⟨s', hs', heq⟩ := any_eq_true.1 hany
            exact (pairwise_append.1 hdistinct).2.2 s' hs' s mem_cons_self heq
        rw [foldl_cons, addProxy, if_neg hnew, ih (done ++ [s]) hne (by simpa using hdistinct), append_assoc]
        rfl
    exact hall z.vsTrustedProxies [] (fun s hs => (h.proxies s hs).1) h.distinct
  · rw [hlist h.clientCaps (i := 17) rfl (by decide), hset]
  · rw [hlist h.serverCaps (i := 18) rfl (by decide), hset]

theorem ReadBack.modLines_eq (h : WellSet env z) (hread : ReadBack env z config) :
    modLines config = z.modules.vMods.map fun pMod => (pMod.sModName, pMod.sArgs) := by
  have hversion : savedVersion config = (1, 11) := by
    have hlook : look config (lit "version") = [VERSION_STR] := hread.look_at (i := 8) rfl (by decide)
    rw [savedVersion, findStringEntry_fst, hlook]
    decide
  have hlines : (config.findStringVector (lit "loadmodule")).1 = z.modules.vMods.map modText := by
    have hlook : look config (lit "loadmodule") = nonempty (z.modules.vMods.map fun pMod =>
        firstLine pMod.sModName ++ if pMod.sArgs = [] then [] else lit " " ++
          firstLine pMod.sArgs) := hread.look_at (i := 21) rfl (by decide)
    have htexts : (z.modules.vMods.map fun pMod =>
        firstLine pMod.sModName ++ if pMod.sArgs = [] then [] else lit " " ++
          firstLine pMod.sArgs) = z.modules.vMods.map modText := by
      refine map_congr_left fun pMod hmod => ?_
      rw [firstLine_eq (oneLine_modName pMod), firstLine_eq (h.modules pMod hmod).1.single, modText]
    rw [findStringVector_fst, hlook, htexts, nonempty_eq_self]
    intro sValue hvalue
    obtain ⟨pMod, -, rfl⟩ := mem_map.1 hvalue
    exact append_ne_nil_of_left_ne_nil pMod.ne _
  rw [modLines, hversion, hlines, if_neg (by decide), append_nil, map_map]
  refine map_congr_left fun pMod hmod => ?_
  have holder : older (1, 11) 0 207 = false := by decide
  rw [Function.comp_apply, modLine, holder, if_neg fun hno => Bool.false_ne_true hno.2, modText]
  by_cases hargs : pMod.sArgs = []
  · rw [if_pos hargs, append_nil, token_zero_of_not_mem pMod.noSpace, token_rest_of_not_mem pMod.noSpace, hargs]
  · have hspace : lit " " ++ pMod.sArgs = 0x20 :: pMod.sArgs := by
      have hlit : lit " " = [0x20] := by decide
      rw [hlit]
      rfl
    rw [if_neg hargs, hspace, token_zero_append pMod.ne pMod.noSpace, token_rest pMod.ne pMod.noSpace]
    have hfirst := ((h.modules pMod hmod).1 hargs).first
    cases hs : pMod.sArgs with
    | nil => exact absurd hs hargs
    | cons c s =>
      have hc : ¬c = 0x20 := by
        rintro rfl
        exact hfirst 0x20 (by rw [hs]; rfl) (by decide)
      rw [dropWhile_cons_of_neg (by simpa using hc)]

/-! ### Modules -/

theorem foldlM_loadLine_loads {lines : List (CString × CString)} (hloads : ∀ line ∈ lines, env.Loads line)
    (hnodup : (lines.map Prod.fst).Nodup) {st : Loading} (hnew : ∀ line ∈ lines, st.msModules.find line.1 = none) :
    ∃ st', lines.foldlM (loadLine env) st = .ok st' := by
  induction lines generalizing st with
  | nil => exact ⟨st, rfl⟩
  | cons line lines ih =>
    obtain ⟨hload, hloads⟩ := forall_mem_cons.1 hloads
    obtain ⟨hfind, hnew⟩ := forall_mem_cons.1 hnew
    obtain ⟨hother, hnodup⟩ := nodup_cons.1 hnodup
    obtain ⟨t, ht⟩ := loadLine_ok_iff.2 ⟨hfind, .inr hload⟩
    have hnext : ∀ other ∈ lines, t.msModules.find other.1 = none := by
      intro other hmem
      have hne : other.1 ≠ line.1 := fun heq => hother (heq ▸ mem_map_of_mem hmem)
      rw [(loadLine_spec ht).2, OrdMap.find_insert, if_neg hne]
      exact hnew other hmem
    obtain ⟨st', hst'⟩ := ih hloads hnodup hnext
    refine ⟨st', ?_⟩
    rw [foldlM_cons, ht]
    exact hst'

/-- **The modules** are loaded again. -/
theorem ReadBack.modules (h : WellSet env z) (hread : ReadBack env z config) :
    ∃ st, loadLines env (modLines config) .empty = .ok st ∧
      ∀ pMod, pMod ∈ (unloadRemovedModules st.msModules st.modules).vMods ↔ pMod ∈ z.modules.vMods := by
  set lines := z.modules.vMods.map fun pMod => (pMod.sModName, pMod.sArgs) with hlines
  have hsymm := sameMod_symm
  -- a name is that of one module
  have honly {pMod pMod' : CModule} (hmod : pMod ∈ z.modules.vMods) (hmod' : pMod' ∈ z.modules.vMods)
      (hname : pMod.sModName.equals pMod'.sModName = true) : pMod = pMod' :=
        z.modules.distinct.eq_of_rel hsymm hmod hmod' hname
  have hnames : (lines.map Prod.fst).Nodup := by
    rw [hlines, map_map]
    refine List.Pairwise.map _ (fun pMod pMod' hne heq => hne ?_) z.modules.distinct
    have hname : pMod.sModName = pMod'.sModName := heq
    rw [SameMod, hname]
    exact equals_refl _
  have hloads : ∀ line ∈ lines, env.Loads line := by
    intro line hline
    obtain ⟨pMod, hmod, rfl⟩ := mem_map.1 hline
    exact ⟨pMod.ne, pMod.valid, (h.modules pMod hmod).2⟩
  have hempty : ∀ line ∈ lines, (Loading.mk .empty .empty).msModules.find line.1 = none :=
    fun line _ => OrdMap.find_empty line.1
  obtain ⟨st, hst⟩ := foldlM_loadLine_loads hloads hnames hempty
  have hload : loadLines env (modLines config) .empty = .ok st := by
    rw [hread.modLines_eq h, loadLines]
    exact hst
  refine ⟨st, hload, fun pMod => ?_⟩
  have hfold {pMod : CModule} (hmod : pMod ∈ z.modules.vMods) :
      lines.foldl (settle pMod.sModName) none = some (pMod.sModName, pMod.sArgs) := by
    have hsame : ∀ other ∈ lines, pMod.sModName.equals other.1 = true → other = (pMod.sModName, pMod.sArgs) := by
      intro other hother hname
      obtain ⟨pMod', hmod', rfl⟩ := mem_map.1 hother
      rw [honly hmod hmod' hname]
    obtain ⟨line, hfirst⟩ : ∃ line, lines.find? (fun line => pMod.sModName.equals line.1) = some line := by
      rw [← Option.isSome_iff_exists, find?_isSome]
      exact ⟨_, mem_map_of_mem hmod, equals_refl _⟩
    have hline := hsame line (mem_of_find?_eq_some hfirst) (by simpa using find?_some hfirst)
    rw [foldl_settle_none hfirst fun other hother hname => by rw [hsame other hother hname, hline], hline]
  have hnone : held .empty pMod.sModName = none := rfl
  rw [mem_loaded hload, hread.modLines_eq h, hnone]
  constructor
  · rintro ⟨hsettle, hmem⟩
    obtain ⟨line, hline, hname⟩ := mem_map.1 hmem
    obtain ⟨pMod', hmod', rfl⟩ := mem_map.1 hline
    have hname : pMod'.sModName = pMod.sModName := hname
    rw [← hname, hfold hmod'] at hsettle
    obtain ⟨-, hargs⟩ := Prod.mk.inj (Option.some.inj hsettle)
    have hsame : pMod' = pMod := by
      cases pMod
      cases pMod'
      simp only at hname hargs
      subst hname hargs
      rfl
    rwa [← hsame]
  · intro hmod
    refine ⟨hfold hmod, ?_⟩
    rw [map_map]
    exact mem_map_of_mem hmod

/-! ### Settings -/

/-- the value of a setting that comes back -/
def Back (env : Env) (z : CZNC) (setting : Setting) (r : CZNC) : Prop :=
  match setting with
  | .string setting =>
    r.strings setting = z.text env (.string setting) ∧
      (setting = .sslProtocols → r.uDisabledSSLProtocols =
        if z.strings .sslProtocols = [] then (CZNC.new env).uDisabledSSLProtocols else z.uDisabledSSLProtocols)
  | .uint setting => r.getUInt setting = z.getUInt setting
  | .bool setting => r.bools setting = z.bools setting

theorem Back.congr {setting : Setting} {r r' : CZNC} (hagree : Agree setting r r') (h : Back env z setting r') :
    Back env z setting r := by
  cases setting with
  | string setting => exact ⟨hagree.1.trans h.1, fun heq => (hagree.2 heq).trans (h.2 heq)⟩
  | uint setting =>
    refine Eq.trans ?_ h
    rw [CZNC.getUInt, CZNC.getUInt]
    split_ifs with heq
    · subst heq
      exact congrArg (· / 1000) hagree
    · exact hagree
  | bool setting => exact Eq.trans hagree h

theorem Back.default (henv : env.Sound) (h : WellSet env z) {setting : Setting} (hnil : z.text env setting = []) :
    Back env z setting (.new env) := by
  cases setting with
  | string setting =>
    obtain ⟨⟨-, hpem⟩, ⟨-, hkey⟩, ⟨-, hdh⟩⟩ := locations_spec henv h
    cases setting
    case sslCertFile => exact absurd hnil hpem
    case sslKeyFile => exact absurd hnil hkey
    case sslDHParamFile => exact absurd hnil hdh
    case sslProtocols => exact ⟨hnil.symm, fun _ => (if_pos hnil).symm⟩
    all_goals exact ⟨hnil.symm, fun heq => by cases heq⟩
  | uint setting => exact absurd hnil (uintText_ne _)
  | bool setting => exact absurd hnil (boolText_ne _)

theorem throttle_back (u : UInt32) : u / 1000 * 1000 / 1000 = u / 1000 := by
  apply UInt32.toNat_inj.1
  have hu := u.toNat_lt
  have hthousand : (1000 : UInt32).toNat = 1000 := rfl
  rw [UInt32.toNat_div, UInt32.toNat_mul, UInt32.toNat_div, hthousand]
  omega

theorem Back.assigned (h : WellSet env z) {setting : Setting} (hne : z.text env setting ≠ []) (z' : CZNC) :
    ∃ r, assign env setting (z.text env setting) z' = .ok r ∧ Back env z setting r := by
  cases setting with
  | string setting =>
    by_cases hssl : setting = .sslProtocols
    · subst hssl
      have hprotocols : env.sslDisabled (z.strings .sslProtocols) = some z.uDisabledSSLProtocols :=
        h.protocols.resolve_right fun hno => hne hno.1
      refine ⟨z'.putSSLProtocols (z.strings .sslProtocols) z.uDisabledSSLProtocols, ?_, ?_, fun _ => ?_⟩
      · rw [assign, CZNC.text, CZNC.setSSLProtocols, hprotocols]
        · rfl
        all_goals exact fun heq => by cases heq
      · exact z'.strings_putString .sslProtocols _
      · exact (if_neg hne).symm
    · have hput : assign env (.string setting) (z.text env (.string setting)) z' =
          .ok (z'.putString setting (z.text env (.string setting))) := by
        cases setting <;> first | rfl | exact absurd rfl hssl
      exact ⟨_, hput, z'.strings_putString setting _, fun heq => absurd heq hssl⟩
  | uint setting =>
    have hread : CString.toUInt (z.text env (.uint setting)) = z.getUInt setting := UserConfig.toUInt_uintText _
    cases setting
    case connectDelay =>
      have hdelay : ¬z.uints .connectDelay < 1 := UInt32.not_lt.2 h.connectDelay
      refine ⟨_, rfl, ?_⟩
      rw [hread]
      show (z'.setConnectDelay (z.uints .connectDelay)).uints .connectDelay = z.uints .connectDelay
      rw [CZNC.setConnectDelay, CZNC.uints_putUInt, if_neg hdelay]
    case connectThrottle =>
      refine ⟨_, rfl, ?_⟩
      rw [hread]
      show (z'.setServerThrottle (z.uints .connectThrottle / 1000)).uints .connectThrottle / 1000 =
        z.uints .connectThrottle / 1000
      rw [CZNC.setServerThrottle, CZNC.uints_putUInt, throttle_back]
    all_goals
      refine ⟨_, rfl, ?_⟩
      rw [hread]
      exact z'.uints_putUInt _ _
  | bool setting =>
    refine ⟨_, rfl, ?_⟩
    show (z'.putBool setting (CString.toBool (boolText (z.bools setting)))).bools setting = z.bools setting
    rw [CZNC.bools_putBool, UserConfig.toBool_boolText]

/-- **The settings** are assigned again. -/
theorem ReadBack.assigned (henv : env.Sound) (h : WellSet env z) (hread : ReadBack env z config) (st : Loading) :
    ∃ t, loadSettings env config (listed config (.new env) st) = .ok t ∧ ∀ setting, Back env z setting t := by
  have hentry := hread.entryOf_eq h
  have hok : ∀ setting ∈ settings, ∀ sVal, entryOf config setting = some sVal →
    ∃ s' r', assign env setting sVal s' = .ok r' := by
    intro setting _ sVal hval
    rw [hentry] at hval
    split_ifs at hval with hnil
    obtain rfl := Option.some.inj hval
    obtain ⟨r, hr, -⟩ := Back.assigned h hnil z
    exact ⟨z, r, hr⟩
  obtain ⟨t, ht⟩ := ((assign_lawful env).assignAll_ok_iff settings (listed config (.new env) st)).2 hok
  refine ⟨t, ht, fun setting => ?_⟩
  by_cases hnil : z.text env setting = []
  · have hsrc : entryOf config setting = none := by rw [hentry, if_pos hnil]
    have hagree := (assign_lawful env).agree_of_none ht hsrc
    exact ((Back.default henv h hnil).congr (agree_listed setting config (.new env) st)).congr hagree
  · have hsrc : entryOf config setting = some (z.text env setting) := by rw [hentry, if_neg hnil]
    obtain ⟨r', hr', hagree⟩ := (assign_lawful env).agree_of_src nodup_settings ht (mem_settings setting) hsrc z
    obtain ⟨r, hr, hback⟩ := Back.assigned h hnil z
    obtain rfl := Except.ok.inj (hr.symm.trans hr')
    exact hback.congr hagree

end Values

/-! ### Listeners -/

section Blocks

variable {α : Type} {c : CConfig} {k : CString} {table : List (CString × VCString)}

theorem take_entry {vs : VCString} (h : Holds c ((k, vs) :: table)) (hk : decide (k ∈ table.map Prod.fst) = false)
    (hone : vs.length ≤ 1) (hsubs : c.subConfigs = .nil) :
    ∃ c', Holds c' table ∧ c'.subConfigs = .nil ∧
      ∀ f : Option CString → Taking α, (Taking.findStringEntry k >>= f) c = f vs.head? c' := by
  obtain ⟨c', htaken, hholds, hsame⟩ := h.take (of_decide_eq_false hk) hone
  refine ⟨c', hholds, hsame.trans hsubs, fun f => ?_⟩
  show ((Taking.findStringEntry k) c).bind (fun p => f p.1 p.2) = f vs.head? c'
  rw [Taking.findStringEntry, htaken]
  rfl

theorem take_bool {b : Bool} (bDefault : Bool) (h : Holds c ((k, [boolText b]) :: table))
    (hk : decide (k ∈ table.map Prod.fst) = false) (hsubs : c.subConfigs = .nil) :
    ∃ c', Holds c' table ∧ c'.subConfigs = .nil ∧
      ∀ f : Bool → Taking α, (Taking.findBoolEntry k bDefault >>= f) c = f b c' := by
  obtain ⟨c', hholds, hsubs', htaken⟩ := @take_entry α c k table _ h hk le_rfl hsubs
  refine ⟨c', hholds, hsubs', fun f => ?_⟩
  have hbool : (Taking.findBoolEntry k bDefault >>= f) =
      Taking.findStringEntry k >>= fun o => f (o.elim bDefault CString.toBool) := by
    rw [Taking.findBoolEntry, bind_assoc]
    congr 1
    funext o
    cases o <;> rfl
  have hbind := htaken fun o => f (o.elim bDefault CString.toBool)
  rw [head?_cons, Option.elim_some, UserConfig.toBool_boolText] at hbind
  rw [hbool, hbind]

theorem skip_entry (h : Holds c table) (hk : decide (k ∈ table.map Prod.fst) = false) (f : Option CString → Taking α) :
    (Taking.findStringEntry k >>= f) c = f none c := by
  show ((Taking.findStringEntry k) c).bind (fun p => f p.1 p.2) = f none c
  rw [Taking.findStringEntry, h.skip (of_decide_eq_false hk)]
  rfl

end Blocks

theorem acceptType_written (eAccept : EAcceptType) :
    acceptType (eAccept ≠ .ACCEPT_HTTP) (eAccept ≠ .ACCEPT_IRC) = some eAccept := by
  cases eAccept <;> rfl

theorem addrType_written (eAddr : EAddrType) :
    addrType (eAddr ≠ .ADDR_IPV6ONLY) (eAddr ≠ .ADDR_IPV4ONLY) = some eAddr := by
  cases eAddr <;> rfl

theorem head_nonempty (s : CString) : (nonempty [s]).head?.getD [] = s := by
  by_cases hnil : s = []
  · rw [hnil]
    rfl
  · rw [nonempty_singleton hnil]
    rfl

/-- the keys of a block of a socket, in the order in which they are read -/
def tcpTable (eAddr : EAddrType) (uPort : UInt16) (sBindHost sURIPrefix : CString) (bSSL : Bool)
    (eAccept : EAcceptType) :
    List (CString × VCString) :=
  [(lit "port", [uintText uPort.toNat]), (lit "ssl", [boolText bSSL]),
    (lit "allowirc", [boolText (eAccept ≠ .ACCEPT_HTTP)]),
    (lit "allowweb", [boolText (eAccept ≠ .ACCEPT_IRC)]), (lit "uriprefix", [sURIPrefix]),
    (lit "host", nonempty [sBindHost]),
    (lit "ipv4", [boolText (eAddr ≠ .ADDR_IPV6ONLY)]), (lit "ipv6", [boolText (eAddr ≠ .ADDR_IPV4ONLY)])]

/-- the keys of a block of a file -/
def unixTable (sPath sGid : CString) (iMode : ℤ) (sURIPrefix : CString) (bSSL : Bool) (eAccept : EAcceptType) :
    List (CString × VCString) :=
  [(lit "path", nonempty [sPath]), (lit "ssl", [boolText bSSL]), (lit "allowirc", [boolText (eAccept ≠ .ACCEPT_HTTP)]),
    (lit "allowweb", [boolText (eAccept ≠ .ACCEPT_IRC)]), (lit "uriprefix", [sURIPrefix]),
    (lit "group", nonempty [sGid]),
    (lit "mode", nonempty [getMode iMode])]

theorem parse_tcpTable (env : Env) {c : CConfig} {eAddr : EAddrType} {uPort : UInt16}
    {sBindHost sURIPrefix : CString} {bSSL : Bool}
    {eAccept : EAcceptType} (h : Holds c (tcpTable eAddr uPort sBindHost sURIPrefix bSSL eAccept))
    (hsubs : c.subConfigs = .nil) :
    ∃ c', parseListener env c = .ok (.tcp uPort sBindHost (uriPrefix sURIPrefix) bSSL eAddr eAccept, c') ∧
      c'.isEmpty = true := by
  obtain ⟨c, h, hsubs, hport⟩ := @take_entry Parsed _ _ _ _ h rfl le_rfl hsubs
  obtain ⟨c, h, hsubs, hssl⟩ := @take_bool Parsed _ _ _ _ false h rfl hsubs
  obtain ⟨c, h, hsubs, hirc⟩ := @take_bool Parsed _ _ _ _ true h rfl hsubs
  obtain ⟨c, h, hsubs, hweb⟩ := @take_bool Parsed _ _ _ _ true h rfl hsubs
  obtain ⟨c, h, hsubs, huri⟩ := @take_entry Parsed _ _ _ _ h rfl le_rfl hsubs
  obtain ⟨c, h, hsubs, hhost⟩ := @take_entry Parsed _ _ _ _ h rfl (length_filter_le _ _) hsubs
  obtain ⟨c, h, hsubs, hfour⟩ := @take_bool Parsed _ _ _ _ true h rfl hsubs
  obtain ⟨c, h, hsubs, hsix⟩ := @take_bool Parsed _ _ _ _ env.bIPv6 h rfl hsubs
  refine ⟨c, ?_, h.isEmpty hsubs⟩
  have hsome {s : CString} : ¬(some s).isNone = true := Bool.false_ne_true
  rw [parseListener, hport, head?_cons]
  dsimp only
  rw [if_neg hsome, pure_bind, if_neg fun hno => hsome hno.1, hssl, hirc, hweb, huri, acceptType_written]
  simp only [head?_cons]
  rw [hhost, hfour, hsix, addrType_written, head_nonempty, toUShort_uintText]
  rfl

theorem parse_unixTable (env : Env) {c : CConfig} {sPath sGid : CString} {iMode : ℤ}
    {sURIPrefix : CString} {bSSL : Bool}
    {eAccept : EAcceptType} (hpath : sPath ≠ []) (h : Holds c (unixTable sPath sGid iMode sURIPrefix bSSL eAccept))
    (hsubs : c.subConfigs = .nil) :
    ∃ c', parseListener env c = .ok (.unix sPath (uriPrefix sURIPrefix) bSSL eAccept sGid (getMode iMode), c') ∧
      c'.isEmpty = true := by
  have hport := skip_entry (α := Parsed) h (k := lit "port") rfl
  obtain ⟨c, h, hsubs, hfile⟩ := @take_entry Parsed _ _ _ _ h rfl (length_filter_le _ _) hsubs
  obtain ⟨c, h, hsubs, hssl⟩ := @take_bool Parsed _ _ _ _ false h rfl hsubs
  obtain ⟨c, h, hsubs, hirc⟩ := @take_bool Parsed _ _ _ _ true h rfl hsubs
  obtain ⟨c, h, hsubs, hweb⟩ := @take_bool Parsed _ _ _ _ true h rfl hsubs
  obtain ⟨c, h, hsubs, huri⟩ := @take_entry Parsed _ _ _ _ h rfl le_rfl hsubs
  obtain ⟨c, h, hsubs, hgroup⟩ := @take_entry Parsed _ _ _ _ h rfl (length_filter_le _ _) hsubs
  obtain ⟨c, h, hsubs, hmode⟩ := @take_entry Parsed _ _ _ _ h rfl (length_filter_le _ _) hsubs
  refine ⟨c, ?_, h.isEmpty hsubs⟩
  have hnone : (none : Option CString).isNone = true := rfl
  have hsome {s : CString} : ¬(some s).isNone = true := Bool.false_ne_true
  rw [parseListener, hport]
  dsimp only
  rw [if_pos hnone, hfile, nonempty_singleton hpath, head?_cons,
    if_neg fun hno => hsome hno.2, hssl, hirc, hweb, huri, acceptType_written]
  simp only [head?_cons]
  rw [hgroup, hmode, head_nonempty, head_nonempty]
  rfl

theorem parse_noPath (env : Env) {c : CConfig} {sGid : CString} {iMode : ℤ} {sURIPrefix : CString} {bSSL : Bool}
    {eAccept : EAcceptType} (h : Holds c (unixTable [] sGid iMode sURIPrefix bSSL eAccept))
    (hsubs : c.subConfigs = .nil) :
    parseListener env c = .error (lit "No port and no path given") := by
  have hport := skip_entry (α := Parsed) h (k := lit "port") rfl
  obtain ⟨c, h, hsubs, hfile⟩ := @take_entry Parsed _ _ _ _ h rfl (length_filter_le _ _) hsubs
  rw [parseListener, hport]
  have hnone : (none : Option CString).isNone = true := rfl
  dsimp only
  rw [if_pos hnone, hfile]
  rfl

def CListener.readBack (pListener : CListener) : CListener :=
  { pListener with
    sURIPrefix := uriPrefix (pListener.sURIPrefix ++ lit "/")
    address := match pListener.address with
      | .tcp eAddr uPort sBindHost => .tcp eAddr uPort sBindHost
      | .unix sPath sGid iMode => .unix sPath sGid (modeOf (getMode iMode)) }

/-- a listener that can be opened again, with a certificate at a location -/
structure CListener.Opening (env : Env) (sPemFile : CString) (pListener : CListener) : Prop where
  path : ∀ sPath sGid iMode, pListener.address = .unix sPath sGid iMode → sPath ≠ []
  pem : pListener.bSSL = true → env.pemFile sPemFile = true

theorem perm_tcp {α : Type} (u s i w h p a b : α) : [u, s, i, w, h, p, a, b].Perm [p, s, i, w, u, h, a, b] := by
  classical
  rw [perm_iff_count]
  intro x
  simp only [count_cons]
  omega

theorem perm_unix {α : Type} (u s i w p g m : α) : [u, s, i, w, p, g, m].Perm [p, s, i, w, u, g, m] := by
  classical
  rw [perm_iff_count]
  intro x
  simp only [count_cons]
  omega

theorem nonempty_prefixed (s : CString) : nonempty [s ++ lit "/"] = [s ++ lit "/"] :=
  nonempty_singleton (append_ne_nil_of_right_ne_nil _ (by decide))

theorem nonempty_bool (b : Bool) : nonempty [boolText b] = [boolText b] :=
  nonempty_singleton (boolText_ne b)

section Listeners

variable {env : Env} {pListener : CListener}

theorem holds_tcp (h : pListener.Added env) {eAddr : EAddrType} {uPort : UInt16} {sBindHost : CString}
    (haddress : pListener.address = .tcp eAddr uPort sBindHost) :
    Holds (reread pListener.table)
      (tcpTable eAddr uPort sBindHost (pListener.sURIPrefix ++ lit "/") pListener.bSSL pListener.eAcceptType) := by
  have hholds := (tableOk_listener h).holds
  have htable : (pListener.table.map fun e => (e.1.asLower, nonempty e.2)) =
      [(lit "uriprefix", nonempty [pListener.sURIPrefix ++ lit "/"]), (lit "ssl", nonempty [boolText pListener.bSSL]),
        (lit "allowirc", nonempty [boolText (pListener.eAcceptType ≠ .ACCEPT_HTTP)]),
        (lit "allowweb", nonempty [boolText (pListener.eAcceptType ≠ .ACCEPT_IRC)]), (lit "host", nonempty [sBindHost]),
        (lit "port", nonempty [uintText uPort.toNat]), (lit "ipv4", nonempty [boolText (eAddr ≠ .ADDR_IPV6ONLY)]),
        (lit "ipv6", nonempty [boolText (eAddr ≠ .ADDR_IPV4ONLY)])] := by
    rw [CListener.table, haddress]
    rfl
  rw [htable, nonempty_prefixed, nonempty_bool, nonempty_bool, nonempty_bool, nonempty_bool, nonempty_bool,
    nonempty_singleton (uintText_ne _)] at hholds
  exact hholds.perm (perm_tcp _ _ _ _ _ _ _ _)

theorem holds_unix (h : pListener.Added env) {sPath sGid : CString} {iMode : ℤ}
    (haddress : pListener.address = .unix sPath sGid iMode) :
    Holds (reread pListener.table)
      (unixTable sPath sGid iMode (pListener.sURIPrefix ++ lit "/") pListener.bSSL pListener.eAcceptType) := by
  have hholds := (tableOk_listener h).holds
  have htable : (pListener.table.map fun e => (e.1.asLower, nonempty e.2)) =
      [(lit "uriprefix", nonempty [pListener.sURIPrefix ++ lit "/"]), (lit "ssl", nonempty [boolText pListener.bSSL]),
        (lit "allowirc", nonempty [boolText (pListener.eAcceptType ≠ .ACCEPT_HTTP)]),
        (lit "allowweb", nonempty [boolText (pListener.eAcceptType ≠ .ACCEPT_IRC)]), (lit "path", nonempty [sPath]),
        (lit "group", nonempty [sGid]), (lit "mode", nonempty [getMode iMode])] := by
    rw [CListener.table, haddress]
    rfl
  rw [htable, nonempty_prefixed, nonempty_bool, nonempty_bool, nonempty_bool] at hholds
  exact hholds.perm (perm_unix _ _ _ _ _ _ _)

theorem subConfigs_reread (table : List (CString × VCString)) : (reread table).subConfigs = .nil := by
  rw [reread, addEntries_eq]
  rfl

theorem parseListener_reread (h : pListener.Added env)
    (hpath : ∀ sPath sGid iMode, pListener.address = .unix sPath sGid iMode → sPath ≠ []) :
    ∃ parsed c', parseListener env (reread pListener.table) = .ok (parsed, c') ∧ c'.isEmpty = true ∧
      ∀ z : CZNC, z.addParsed env parsed = (z.checkSslAndPemFile env pListener.bSSL).bind fun _ =>
        z.finishAddingListener env pListener.readBack := by
  cases haddress : pListener.address with
  | tcp eAddr uPort sBindHost =>
    obtain ⟨c', hparse, hempty⟩ := parse_tcpTable env (holds_tcp h haddress) (subConfigs_reread _)
    obtain ⟨-, hport, hfamily⟩ := h.tcp _ _ _ haddress
    refine ⟨_, c', hparse, hempty, fun z => ?_⟩
    have hsix : ¬(!env.bIPv6 && decide (eAddr = .ADDR_IPV6ONLY)) = true := by
      rw [Bool.and_eq_true, Bool.not_eq_true', decide_eq_true_eq]
      rintro ⟨hno, hsix⟩
      rw [hfamily hsix] at hno
      cases hno
    have hback : pListener.readBack =
      ⟨.tcp eAddr uPort sBindHost, pListener.bSSL, uriPrefix (pListener.sURIPrefix ++ lit "/"),
        pListener.eAcceptType⟩ := by
      rw [CListener.readBack, haddress]
    rw [CZNC.addParsed, CZNC.addTCPListener, if_neg hsix, if_neg hport, hback]
    rfl
  | unix sPath sGid iMode =>
    obtain ⟨c', hparse, hempty⟩ :=
      parse_unixTable env (hpath _ _ _ haddress) (holds_unix h haddress) (subConfigs_reread _)
    refine ⟨_, c', hparse, hempty, fun z => ?_⟩
    have hback : pListener.readBack = ⟨.unix sPath sGid (modeOf (getMode iMode)), pListener.bSSL,
        uriPrefix (pListener.sURIPrefix ++ lit "/"), pListener.eAcceptType⟩ := by
      rw [CListener.readBack, haddress]
    rw [CZNC.addParsed, CZNC.addUnixListener, hback]
    rfl

/-- **One block:** when it goes through, and what it opens. -/
theorem addListener_iff (henv : env.Sound) (h : pListener.Added env) {z r : CZNC} :
    z.addListener env (reread pListener.table) = .ok r ↔
      pListener.Opening env (z.getPemLocation env) ∧
        r = { z with vpListeners := z.vpListeners ++ [pListener.readBack] } := by
  have hlistener (parsed : Parsed) (c' : CConfig)
    (hparse : parseListener env (reread pListener.table) = .ok (parsed, c'))
      (hempty : c'.isEmpty = true) : z.addListener env (reread pListener.table) = z.addParsed env parsed := by
    rw [CZNC.addListener, hparse]
    show ((z.addParsed env parsed).bind fun z => if c'.isEmpty = true then Except.ok z else _) = _
    simp only [hempty, if_true]
    cases z.addParsed env parsed <;> rfl
  by_cases hpath : ∀ sPath sGid iMode, pListener.address = .unix sPath sGid iMode → sPath ≠ []
  · obtain ⟨parsed, c', hparse, hempty, hadd⟩ := parseListener_reread h hpath
    rw [hlistener parsed c' hparse hempty, hadd]
    constructor
    · intro hok
      obtain ⟨hcheck, hr⟩ := finish_ok hok
      exact ⟨⟨hpath, fun hssl => (check_ok_iff.1 hcheck hssl).2⟩, hr⟩
    · rintro ⟨hopening, rfl⟩
      have hcheck : z.checkSslAndPemFile env pListener.bSSL = .ok () :=
        check_ok_iff.2 fun hssl => ⟨h.bSSL hssl, hopening.pem hssl⟩
      rw [hcheck]
      show z.finishAddingListener env pListener.readBack = _
      rw [CZNC.finishAddingListener, henv.listens]
  · refine iff_of_false (fun hok => ?_) fun hopening => hpath hopening.1.path
    push Not at hpath
    obtain ⟨sPath, sGid, iMode, haddress, rfl⟩ := hpath
    rw [CZNC.addListener, parse_noPath env (holds_unix h haddress) (subConfigs_reread _)] at hok
    cases hok

/-- **All blocks.** -/
theorem addListeners_iff (henv : env.Sound) {vpListeners : List CListener}
    (h : ∀ pListener ∈ vpListeners, pListener.Added env)
    {z r : CZNC} :
    vpListeners.foldlM (fun z pListener => CZNC.addListener env z (reread pListener.table)) z = .ok r ↔
      (∀ pListener ∈ vpListeners, pListener.Opening env (z.getPemLocation env)) ∧
        r = { z with vpListeners := z.vpListeners ++ vpListeners.map CListener.readBack } := by
  induction vpListeners generalizing z with
  | nil =>
    rw [foldlM_nil, map_nil, append_nil]
    constructor
    · intro hok
      exact ⟨fun pListener hmem => absurd hmem List.not_mem_nil, (Except.ok.inj hok).symm⟩
    · rintro ⟨-, rfl⟩
      rfl
  | cons pListener vpListeners ih =>
    obtain ⟨hadded, h⟩ := forall_mem_cons.1 h
    rw [foldlM_cons, forall_mem_cons]
    constructor
    · intro hok
      obtain ⟨t, ht, hrest⟩ := Assignments.bind_ok hok
      obtain ⟨hopening, rfl⟩ := (addListener_iff henv hadded).1 ht
      obtain ⟨hall, rfl⟩ := (ih h).1 hrest
      refine ⟨⟨hopening, hall⟩, ?_⟩
      rw [map_cons, append_assoc]
      rfl
    · rintro ⟨⟨hopening, hall⟩, rfl⟩
      have ht := (addListener_iff henv hadded).2 ⟨hopening, rfl⟩
      rw [ht]
      refine (ih h).2 ⟨hall, ?_⟩
      rw [map_cons, append_assoc]
      rfl

end Listeners

/-! ## The restart -/

section Restart

variable {env : Env} {z : CZNC}

theorem ReadBack.openAll_eq {config : CConfig} (hread : ReadBack env z config) (t : CZNC) :
    openAll env config t = z.vpListeners.foldlM
      (fun z pListener => CZNC.addListener env z (reread pListener.table)) t := by
  have hlines : CZNC.listenerLines config = [] := by
    have hno : ∀ szEntry ∈ CZNC.szListenerEntries, szEntry ∉ tableKeys.map asLower := by decide
    refine flatMap_eq_nil_iff.2 fun szEntry hmem => ?_
    have hnone : look config szEntry = [] := by
      refine hread.holds.others szEntry ?_
      have hkeys : ((z.table env).map fun e => (e.1.asLower, nonempty e.2)).map Prod.fst = tableKeys.map asLower := by
        rw [map_map, ← keys_table env z, map_map]
        rfl
      rw [hkeys]
      exact hno szEntry hmem
    rw [findStringVector_fst, hnone]
    rfl
  have hblocks : (config.findSubConfig (lit "listener")).1 = (listenerTables z).map fun b => (b.1, reread b.2) := by
    rw [CConfig.findSubConfig, hread.subConfigs, split_blocks]
  have htables : ((listenerTables z).map fun b => (b.1, reread b.2)).map Prod.snd =
      (z.vpListeners.map CListener.table).map reread := by
    rw [← tables_listenerTables, map_map, map_map]
    rfl
  rw [openAll, hlines, hblocks]
  show ((listenerTables z).map fun b => (b.1, reread b.2)).foldlM (fun z subIt => CZNC.addListener env z subIt.2) t = _
  have hsnd : ((listenerTables z).map fun b => (b.1, reread b.2)).foldlM
    (fun z subIt => CZNC.addListener env z subIt.2) t =
      (((listenerTables z).map fun b => (b.1, reread b.2)).map Prod.snd).foldlM (CZNC.addListener env) t := by
    exact foldlM_map.symm
  rw [hsnd, htables, foldlM_map, foldlM_map]

theorem restart_eq (henv : env.Sound) (h : WellSet env z) :
    ∃ t : CZNC, (∀ setting, Back env z setting t) ∧ t.vsMotd = z.vsMotd ∧ t.vsTrustedProxies = z.vsTrustedProxies ∧
      t.ssClientCapBlacklist = z.ssClientCapBlacklist ∧ t.ssServerCapBlacklist = z.ssServerCapBlacklist ∧
      (∀ pMod, pMod ∈ t.modules.vMods ↔ pMod ∈ z.modules.vMods) ∧
      ∀ r, z.restart env = .ok r ↔
        ((∀ pListener ∈ z.vpListeners, pListener.Opening env (t.getPemLocation env)) ∧ z.vpListeners ≠ []) ∧
          r = { t with vpListeners := z.vpListeners.map CListener.readBack } := by
  obtain ⟨config, hconfig, hread⟩ := readConfig_toConfig henv h
  obtain ⟨st, hst, hmods⟩ := hread.modules h
  obtain ⟨t, ht, hback⟩ := hread.assigned henv h st
  obtain ⟨hmotd, hproxies, hclient, hserver⟩ := hread.lists h
  have hrest := loadSettings_rest ht
  rw [listed, loadLists_eq] at hrest
  have hback' (setting : Setting) : Back env z setting (bare t st) := hback setting
  refine ⟨bare t st, hback', hrest.motd.trans hmotd, hrest.proxies.trans hproxies, hrest.clientCaps.trans hclient,
    hrest.serverCaps.trans hserver, fun pMod => ?_, fun r => ?_⟩
  · have hmodules : t.modules = st.modules := hrest.modules
    rw [bare, hmodules]
    exact hmods pMod
  · have hrestart : z.restart env = (CZNC.new env).loadGlobal env config := by
      rw [CZNC.restart, hconfig]
      rfl
    have hiff := @addListeners_iff env henv _ h.listeners (bare t st) r
    rw [← hread.openAll_eq] at hiff
    rw [hrestart, loadGlobal_ok_iff]
    constructor
    · rintro ⟨st', t', hst', ht', hopen, hne⟩
      obtain rfl := Except.ok.inj (hst.symm.trans hst')
      obtain rfl := Except.ok.inj (ht.symm.trans ht')
      obtain ⟨hopening, hr⟩ := hiff.1 hopen
      refine ⟨⟨hopening, fun hnil => hne ?_⟩, hr⟩
      rw [hr, hnil]
      rfl
    · rintro ⟨⟨hopening, hne⟩, hr⟩
      refine ⟨st, t, hst, ht, hiff.2 ⟨hopening, hr⟩, fun hnil => hne ?_⟩
      rw [hr] at hnil
      exact map_eq_nil_iff.1 hnil

theorem CListener.readBack_eq_iff {pListener : CListener} (h : pListener.Added env) :
    pListener.readBack = pListener ↔
      uriPrefix (pListener.sURIPrefix ++ lit "/") = pListener.sURIPrefix ∧
        ∀ sPath sGid iMode, pListener.address = .unix sPath sGid iMode → -1 ≤ iMode := by
  cases pListener with
  | mk address bSSL sURIPrefix eAcceptType =>
    rw [CListener.readBack, CListener.mk.injEq]
    cases address with
    | tcp eAddr uPort sBindHost => simp
    | unix sPath sGid iMode =>
      obtain ⟨-, -, hlow, hhigh⟩ := h.unix _ _ _ rfl
      simp only [Address.unix.injEq, true_and, and_true, modeOf_getMode_iff hlow hhigh]
      constructor
      · rintro ⟨hmode, huri⟩
        refine ⟨huri, fun sPath' sGid' iMode' heq => ?_⟩
        rw [← heq.2.2]
        exact hmode
      · intro hboth
        exact ⟨hboth.2 sPath sGid iMode ⟨rfl, rfl, rfl⟩, hboth.1⟩

theorem map_eq_self_iff {α : Type} (f : α → α) (l : List α) : l.map f = l ↔ ∀ a ∈ l, f a = a := by
  induction l with
  | nil => exact iff_of_true rfl fun a ha => nomatch ha
  | cons a l ih => rw [map_cons, List.cons.injEq, ih, forall_mem_cons]

theorem lasts_iff {pListener : CListener} (h : pListener.Added env) (sPemFile : CString) :
    pListener.Opening env sPemFile ∧ pListener.readBack = pListener ↔
      pListener.Lasts ∧ (pListener.bSSL = true → env.pemFile sPemFile = true) := by
  rw [CListener.readBack_eq_iff h, uriPrefix_iff h.sURIPrefix.noNul]
  constructor
  · rintro ⟨hopening, hform, hmode⟩
    exact ⟨⟨hform, fun sPath sGid iMode heq => ⟨hopening.path _ _ _ heq, hmode _ _ _ heq⟩⟩, hopening.pem⟩
  · rintro ⟨hlasts, hpem⟩
    exact ⟨⟨fun sPath sGid iMode heq => (hlasts.unix _ _ _ heq).1, hpem⟩, hlasts.form,
      fun sPath sGid iMode heq => (hlasts.unix _ _ _ heq).2⟩

/-- **A restart keeps the global state** exactly if its listeners and files are written as they are read. -/
theorem kept_iff (henv : env.Sound) (h : WellSet env z) : z.Kept env ↔ Lasting env z := by
  obtain ⟨t, hback, hmotd, hproxies, hclient, hserver, hmods, hrestart⟩ := restart_eq henv h
  have hstring (setting : StringSetting) : t.strings setting = z.text env (.string setting) :=
    (hback (.string setting)).1
  have hprotocols := (hback (.string .sslProtocols)).2 rfl
  -- files are known by their location
  obtain ⟨⟨-, hpem⟩, ⟨-, hkey⟩, ⟨-, hdh⟩⟩ := locations_spec henv h
  have hpemBack : t.getPemLocation env = env.location (z.getPemLocation env) :=
    congrArg env.location (hstring .sslCertFile)
  have hkeyBack : t.getKeyLocation env = env.location (z.getKeyLocation env) := by
    have hfile : t.strings .sslKeyFile = z.getKeyLocation env := hstring .sslKeyFile
    rw [CZNC.getKeyLocation, hfile, if_neg hkey]
  have hdhBack : t.getDHParamLocation env = env.location (z.getDHParamLocation env) := by
    have hfile : t.strings .sslDHParamFile = z.getDHParamLocation env := hstring .sslDHParamFile
    rw [CZNC.getDHParamLocation, hfile, if_neg hdh]
  constructor
  · rintro ⟨r, hr, hsame⟩
    obtain ⟨⟨hopening, hne⟩, rfl⟩ := (hrestart r).1 hr
    have hcert : env.location (z.strings .sslCertFile) = z.strings .sslCertFile :=
      (hstring .sslCertFile).symm.trans (hsame.strings .sslCertFile (by decide))
    have hpemSame : t.getPemLocation env = z.getPemLocation env := hsame.pem
    have hlistener : ∀ pListener ∈ z.vpListeners,
        pListener.Lasts ∧ (pListener.bSSL = true → env.pemFile (z.getPemLocation env) = true) := by
      intro pListener hmem
      rw [← hpemSame]
      exact (lasts_iff (h.listeners _ hmem) _).1 ⟨hopening _ hmem, (map_eq_self_iff _ _).1 hsame.listeners _ hmem⟩
    refine ⟨hcert, hkeyBack.symm.trans hsame.key, hdhBack.symm.trans hsame.dhParam, fun hnil => ?_, hne,
      fun pListener hmem => (hlistener pListener hmem).1, fun pListener hmem => (hlistener pListener hmem).2⟩
    have hdisabled : t.uDisabledSSLProtocols = z.uDisabledSSLProtocols := hsame.protocols
    rw [← hdisabled, hprotocols, if_pos hnil]
  · intro hlasting
    have hpemSame : t.getPemLocation env = z.getPemLocation env := by
      rw [hpemBack, CZNC.getPemLocation, hlasting.certFile]
      exact hlasting.certFile
    have hlistener : ∀ pListener ∈ z.vpListeners,
        pListener.Opening env (t.getPemLocation env) ∧ pListener.readBack = pListener := by
      intro pListener hmem
      rw [hpemSame]
      exact (lasts_iff (h.listeners _ hmem) _).2 ⟨hlasting.listeners _ hmem, hlasting.pem _ hmem⟩
    refine ⟨{ t with vpListeners := z.vpListeners.map CListener.readBack },
      (hrestart _).2 ⟨⟨fun pListener hmem => (hlistener pListener hmem).1, hlasting.some⟩, rfl⟩, ?_⟩
    refine ⟨fun setting hmem => ?_, hpemSame, hkeyBack.trans hlasting.keyFile, hdhBack.trans hlasting.dhParamFile, ?_,
      fun setting => hback (.uint setting), fun setting => hback (.bool setting), hmotd, hproxies,
      hclient, hserver, hmods,
      (map_eq_self_iff _ _).2 fun pListener hmem => (hlistener pListener hmem).2⟩
    · have hplain : z.text env (.string setting) = z.strings setting := by
        revert hmem
        cases setting
        case sslCertFile => exact fun _ => hlasting.certFile
        case sslKeyFile => exact fun hmem => absurd hmem (by decide)
        case sslDHParamFile => exact fun hmem => absurd hmem (by decide)
        all_goals exact fun _ => rfl
      exact (hstring setting).trans hplain
    · refine hprotocols.trans ?_
      split_ifs with hnil
      · exact (hlasting.protocols hnil).symm
      · rfl

end Restart

/-- **After any calls** a restart keeps the global state exactly if it lasts. -/
theorem global_restart_iff {env : Env} (henv : env.Sound) {calls : List Call} (hcalls : ∀ call ∈ calls, call.Plain) :
    (CZNC.run env calls).Kept env ↔ Lasting env (CZNC.run env calls) :=
  kept_iff henv (WellSet.run henv hcalls)

set_option maxRecDepth 4000 in
theorem sound_sampleEnv : sampleEnv.Sound where
  home := by decide
  zncPath := by decide
  listens _ _ := rfl

/-- the web interface adds a listener with a prefix -/
def prefixCall (sURIPrefix : CString) : Call := .addTCPListener 6697 [] sURIPrefix false .ADDR_ALL .ACCEPT_ALL

def prefixesOf : Except CString CZNC → Option (List CString)
  | .ok z => some (z.vpListeners.map CListener.sURIPrefix)
  | .error _ => none

/-- **A prefix that begins without a slash** has one after a restart. -/
theorem restart_prefix : (prefixCall (lit "znc")).Plain ∧
    prefixesOf (.ok (CZNC.run sampleEnv [prefixCall (lit "znc")])) = some [lit "znc"] ∧
      prefixesOf ((CZNC.run sampleEnv [prefixCall (lit "znc")]).restart sampleEnv) = some [lit "/znc"] ∧
        ¬(CZNC.run sampleEnv [prefixCall (lit "znc")]).Kept sampleEnv := by
  have hplain : (prefixCall (lit "znc")).Plain := by
    show Plain [] ∧ Plain (lit "znc")
    decide +kernel
  have hbefore : prefixesOf (.ok (CZNC.run sampleEnv [prefixCall (lit "znc")])) = some [lit "znc"] := by decide +kernel
  have hafter : prefixesOf ((CZNC.run sampleEnv [prefixCall (lit "znc")]).restart sampleEnv) =
    some [lit "/znc"] := by decide +kernel
  refine ⟨hplain, hbefore, hafter, fun hkept => ?_⟩
  obtain ⟨r, hr, hsame⟩ := hkept
  rw [hr, prefixesOf, hsame.listeners] at hafter
  have heq : some [lit "znc"] = some [lit "/znc"] := hbefore.symm.trans hafter
  exact absurd heq (by decide)

/-- the same prefix as it is read -/
theorem restart_slash : (CZNC.run sampleEnv [prefixCall (lit "/znc")]).Kept sampleEnv := by
  have hplain : ∀ call ∈ [prefixCall (lit "/znc")], call.Plain := by
    refine forall_mem_singleton.2 ?_
    show Plain [] ∧ Plain (lit "/znc")
    decide
  refine (global_restart_iff sound_sampleEnv hplain).2 ?_
  have hlisteners : (CZNC.run sampleEnv [prefixCall (lit "/znc")]).vpListeners =
      [⟨.tcp .ADDR_ALL 6697 [], false, lit "/znc", .ACCEPT_ALL⟩] := by decide
  refine ⟨by decide, by decide, by decide, fun _ => rfl, ?_, ?_, ?_⟩
  · rw [hlisteners]
    exact cons_ne_nil _ _
  · rw [hlisteners]
    refine forall_mem_singleton.2 ⟨.inr (by decide), fun sPath sGid iMode heq => ?_⟩
    cases heq
  · rw [hlisteners]
    refine forall_mem_singleton.2 fun hssl => ?_
    cases hssl

end ZNC.Global
