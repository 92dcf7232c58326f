/-
A user before and after a restart: its config is written to a file, and a new user is made of what is read.

A value that is empty is not written, so the new user keeps its own one. That is the empty value too, but for the format of the
time stamps; and a nick, an alternative nick or an ident that is empty is written as the name of the user.

Model: `Call` are the calls of setters, each in a `CZNC` of its own, as encodings may be forced at one time and not at another.

Results:
- `WellSet.run`: what calls of setters keep;
- `restart_eq`: the user after a restart;
- `restart_iff`: when it has the values of before.
-/
import Mathlib.Data.Bool.AllAny
import ZNC.ConfigRoundTrip
import ZNC.UserConfig

namespace ZNC.UserConfig

open CString Config List OrdMap
open NetworkClone (Env addTable look Full uintText boolText nonempty valuesOf)

/-! ## Statement -/

/-- without blanks around it and without CR, LF and NUL; it may be empty -/
def Plain (s : CString) : Prop := s ≠ [] → Tidy s

instance Plain.decidable (s : CString) : Decidable (Plain s) := inferInstanceAs (Decidable (s ≠ [] → Tidy s))

inductive Call where
  | string (znc : CZNC) (setting : StringSetting) (s : CString)
  | uint (znc : CZNC) (setting : UIntSetting) (u : UInt32) (bForce : Bool)
  | bool (setting : BoolSetting) (b : Bool)
  | pass (s : CString) (eHash : EHashType) (sSalt : CString)
  | addAllowedHost (sHostMask : CString)
  | remAllowedHost (sHostMask : CString)
  | clearAllowedHosts
  | addCTCPReply (sCTCP sReply : CString)
  | delCTCPReply (sCTCP : CString)

def Call.Plain : Call → Prop
  | .string _ _ s | .addAllowedHost s => UserConfig.Plain s
  | .pass s _ sSalt => UserConfig.Plain s ∧ UserConfig.Plain sSalt
  | .addCTCPReply sCTCP sReply => UserConfig.Plain sCTCP ∧ UserConfig.Plain sReply
  | .uint .. | .bool .. | .remAllowedHost _ | .clearAllowedHosts | .delCTCPReply _ => True

namespace CUser

def call (user : CUser) : Call → CUser
  | .string znc setting s => user.setString znc setting s
  | .uint znc setting u bForce => user.setUInt znc setting u bForce
  | .bool setting b => user.setBool setting b
  | .pass s eHash sSalt => user.setPass s eHash sSalt
  | .addAllowedHost sHostMask => (user.addAllowedHost sHostMask).2
  | .remAllowedHost sHostMask => user.remAllowedHost sHostMask
  | .clearAllowedHosts => user.clearAllowedHosts
  | .addCTCPReply sCTCP sReply => (user.addCTCPReply sCTCP sReply).2
  | .delCTCPReply sCTCP => user.delCTCPReply sCTCP

/-- a user after some calls -/
def run (user : CUser) (calls : List Call) : CUser := calls.foldl call user

/-- after a restart there is the user again, with the same values -/
def Kept (znc : CZNC) (user : CUser) (bAllowDefault : Bool) : Prop :=
  ∃ user', znc.restart user = .ok [user'] ∧ user'.getters bAllowDefault = user.getters bAllowDefault

end CUser

/-- a status prefix for all users that they accept, if there is one -/
def CZNC.Accepted (znc : CZNC) : Prop := znc.sStatusPrefix = [] ∨ CUser.statusPrefixOk znc.sStatusPrefix = true

/-- a user whose values come back -/
structure Lasting (znc : CZNC) (user : CUser) (bAllowDefault : Bool) : Prop where
  accepted : znc.Accepted
  timestampFormat : user.strings .timestampFormat ≠ []
  encoding : user.strings .clientEncoding = [] ∨ NetworkClone.EncodingKept znc.toEnv (user.strings .clientEncoding)
  names : bAllowDefault = false → ∀ setting ∈ [StringSetting.nick, .altNick, .ident], user.strings setting ≠ []

/-! ## What the setters keep -/

/-- a user name without a NUL -/
structure NameOk (sUsername : CString) : Prop where
  valid : Login.isValidUserName sUsername = true
  noNul : (0 : UInt8) ∉ sUsername

/-- a user whose values are those of setters -/
structure WellSet (user : CUser) : Prop where
  name : NameOk user.sUsername
  strings : ∀ setting, Plain (user.strings setting)
  statusPrefix : CUser.statusPrefixOk (user.strings .statusPrefix) = true
  language : ∀ c ∈ user.strings .language, isalpha c = true ∨ c = ch '-'
  pass : Plain user.sPass ∧ Plain user.sPassSalt
  salt : user.eHashType = .HASH_NONE ∨ user.eHashType = .HASH_ARGON2ID → user.sPassSalt = []
  hosts : ∀ sHost ∈ user.ssAllowedHosts, Tidy sHost
  replies : ∀ it ∈ user.mssCTCPReplies.entries, Tidy it.1 ∧ 0x20 ∉ it.1 ∧ it.1.asUpper = it.1 ∧ Plain it.2

theorem plain_nil : Plain [] := fun h => absurd rfl h

variable {s : CString}

theorem tidy_of_bytes (hne : s ≠ []) (h : ∀ c ∈ s, c ∉ blanks ∧ c ≠ 0) : Tidy s := by
  refine ⟨hne, fun c hc => ⟨(h c hc).2, ?_, ?_⟩, fun c hc => (h c (mem_of_mem_head? hc)).1,
    fun c hc => (h c (mem_of_getLast? hc)).1⟩
  · rintro rfl
    exact (h _ hc).1 (by decide)
  · rintro rfl
    exact (h _ hc).1 (by decide)

theorem not_blank_of_nameByte {c : UInt8}
    (h : c = ch '@' ∨ c = ch '.' ∨ c = ch '-' ∨ c = ch '_' ∨ isalnum c = true) : c ∉ blanks ∧ c ≠ 0 := by
  have hbad : ∀ d ∈ 0 :: blanks, ¬(d = ch '@' ∨ d = ch '.' ∨ d = ch '-' ∨ d = ch '_' ∨ isalnum d = true) := by
    decide +kernel
  have hno : c ∉ 0 :: blanks := fun hmem => hbad c hmem h
  rw [mem_cons, not_or] at hno
  exact ⟨hno.2, hno.1⟩

theorem NameOk.bytes (h : NameOk s) : ∀ c ∈ s, c ∉ blanks ∧ c ≠ 0 := fun c hc =>
  not_blank_of_nameByte (Login.UserName.chars ⟨s, h.valid⟩ h.noNul c hc)

theorem NameOk.tidy (h : NameOk s) : Tidy s := by
  refine tidy_of_bytes ?_ h.bytes
  rintro rfl
  exact absurd h.valid (by decide)

theorem NameOk.clean (h : NameOk s) : Plain (makeCleanUsername s) := by
  intro hne
  refine tidy_of_bytes hne fun c hc => h.bytes c ?_
  have hmem := mem_of_mem_filter hc
  exact token_subset s 0 false (ch '@') ((takeWhile_sublist _).subset hmem)

theorem WellSet.new {sUsername : CString} (h : NameOk sUsername) : WellSet (CUser.new sUsername) := by
  have hok : CUser.statusPrefixOk (lit "*") = true := by decide
  have hpre : Plain (lit "*") := by decide
  have hformat : Plain (lit "[%H:%M:%S]") := by decide
  refine ⟨h, fun setting => ?_, hok, ?_, ⟨plain_nil, plain_nil⟩, fun _ => rfl, ?_, ?_⟩
  · cases setting
    case nick => exact h.clean
    case ident => exact h.clean
    case statusPrefix => exact hpre
    case timestampFormat => exact hformat
    all_goals exact plain_nil
  · exact fun c hc => nomatch hc
  · exact fun sHost hHost => absurd hHost (OrdSet.not_mem_empty sHost)
  · exact fun it hit => nomatch hit

section Setters

variable {user : CUser}

theorem WellSet.putString (h : WellSet user) {setting : StringSetting} (hs : Plain s)
    (hpre : setting = .statusPrefix → CUser.statusPrefixOk s = true)
    (hlanguage : setting = .language → ∀ c ∈ s, isalpha c = true ∨ c = ch '-') :
    WellSet (user.putString setting s) := by
  refine { h with strings := fun other => ?_, statusPrefix := ?_, language := ?_ }
  · rw [CUser.strings_putString]
    split_ifs
    · exact hs
    · exact h.strings other
  · rw [CUser.strings_putString]
    split_ifs with heq
    · exact hpre heq.symm
    · exact h.statusPrefix
  · rw [CUser.strings_putString]
    split_ifs with heq
    · exact hlanguage heq.symm
    · exact h.language

theorem plain_fixupEncoding (env : Env) (hs : Plain s) : Plain (env.fixupEncoding s) := by
  rw [Env.fixupEncoding]
  split_ifs
  · exact hs
  · decide
  · exact hs

theorem plain_language (hs : ∀ c ∈ s, isalpha c = true ∨ c = ch '-') : Plain s := by
  intro hne
  refine tidy_of_bytes hne fun c hc => not_blank_of_nameByte ?_
  rcases hs c hc with h | h
  · simp [isalnum, h]
  · simp [h]

theorem WellSet.setString (h : WellSet user) (znc : CZNC) (setting : StringSetting) (hs : Plain s) :
    WellSet (user.setString znc setting s) := by
  have hplain {setting : StringSetting} (hpre : setting ≠ .statusPrefix) (hlanguage : setting ≠ .language) :
      WellSet (user.putString setting s) :=
    h.putString hs (fun heq => absurd heq hpre) fun heq => absurd heq hlanguage
  cases setting
  case statusPrefix =>
    rw [CUser.setString, CUser.setStatusPrefix]
    split_ifs with hok hempty
    · subst hempty
      exact absurd hok (by decide)
    · exact h.putString hs (fun _ => hok) (fun heq => by cases heq)
    · exact h
  case language =>
    rw [CUser.setString, CUser.setLanguage]
    split_ifs with hok
    · have hbytes : ∀ c ∈ s.map fun c => if c = ch '_' then ch '-' else c, isalpha c = true ∨ c = ch '-' := by
        intro c hc
        obtain ⟨b, hb, rfl⟩ := mem_map.1 hc
        have hb := all_eq_true.1 hok b hb
        simp only [Bool.or_eq_true, decide_eq_true_eq] at hb
        split_ifs with hunder
        · exact .inr rfl
        · exact hb.resolve_right hunder
      exact h.putString (plain_language hbytes) (fun heq => by cases heq) fun _ => hbytes
    · exact h
  case clientEncoding =>
    exact h.putString (plain_fixupEncoding znc.toEnv hs) (fun heq => by cases heq) fun heq => by cases heq
  all_goals exact hplain (by decide) (by decide)

theorem asUpper_asUpper (s : CString) : s.asUpper.asUpper = s.asUpper := by
  have hupper (b : UInt8) : islower (toupper b) = false := by
    have hbytes : (ch 'a').toNat = 97 ∧ (ch 'z').toNat = 122 := ⟨rfl, rfl⟩
    rw [toupper]
    split_ifs with hlow
    · simp only [islower, Bool.and_eq_true, Bool.and_eq_false_iff, decide_eq_true_eq, decide_eq_false_iff_not,
        UInt8.le_iff_toNat_le, UInt8.toNat_sub] at hlow ⊢
      have h20 : (0x20 : UInt8).toNat = 32 := rfl
      omega
    · simpa using hlow
  rw [asUpper, asUpper, map_map]
  refine map_congr_left fun c _ => ?_
  rw [Function.comp_apply, toupper, hupper, if_neg Bool.false_ne_true]

theorem tidy_asUpper (h : Tidy s) : Tidy s.asUpper := by
  have hno {cs : CString} (hcs : ∀ c ∈ cs, isalpha c = false) {b : UInt8} (hb : b ∉ cs) : toupper b ∉ cs := by
    intro hmem
    rw [(toupper_eq_iff (hcs _ hmem)).1 rfl] at hb
    exact hb hmem
  have hblank {b : UInt8} (hb : b ∉ blanks) : toupper b ∉ blanks := hno (all_iff_forall_prop.1 (by decide)) hb
  have hsingle {b : UInt8} (hb : Single b) : Single (toupper b) := by
    have hends : b ∉ [0, ch '\r', ch '\n'] := by simpa [Single] using hb
    have hmem := hno (all_iff_forall_prop.1 (by decide)) hends
    simpa [Single] using hmem
  refine ⟨by simp [asUpper, h.ne], fun c hc => ?_, fun c hc => ?_, fun c hc => ?_⟩
  · obtain ⟨b, hb, rfl⟩ := mem_map.1 hc
    exact hsingle (h.single b hb)
  · rw [asUpper, head?_map] at hc
    obtain ⟨b, hb, rfl⟩ := Option.mem_map.1 hc
    exact hblank (h.first b hb)
  · rw [asUpper, getLast?_map] at hc
    obtain ⟨b, hb, rfl⟩ := Option.mem_map.1 hc
    exact hblank (h.last b hb)

theorem WellSet.addCTCPReply (h : WellSet user) {sCTCP sReply : CString} (hname : Plain sCTCP) (hreply : Plain sReply) :
    WellSet (user.addCTCPReply sCTCP sReply).2 := by
  rw [CUser.addCTCPReply]
  split_ifs with hspace hempty
  · exact h
  · exact h
  · refine { h with replies := fun it hit => ?_ }
    have hfind := (mem_entries_iff _ it.1 it.2).1 hit
    rw [find_insert] at hfind
    split_ifs at hfind with hkey
    · rw [hkey, ← Option.some.inj hfind]
      refine ⟨tidy_asUpper (hname hempty), fun hmem => hspace ?_, asUpper_asUpper sCTCP, hreply⟩
      obtain ⟨b, hb, heq⟩ := mem_map.1 hmem
      rwa [← (toupper_eq_iff (by decide)).1 heq]
    · exact h.replies it ((mem_entries_iff _ it.1 it.2).2 hfind)

/-- **One call** keeps the rules of the setters. -/
theorem WellSet.call (h : WellSet user) {call : Call} (hcall : call.Plain) : WellSet (user.call call) := by
  cases call with
  | string znc setting s => exact h.setString znc setting hcall
  | uint znc setting u bForce =>
    have hput : WellSet (user.putUInt setting u) := { h with }
    have hsize : WellSet (user.setBufferSize znc setting u bForce).2 := by
      rw [CUser.setBufferSize]
      split_ifs
      · exact h
      · exact hput
    cases setting
    case chanBufferSize => exact hsize
    case queryBufferSize => exact hsize
    all_goals exact hput
  | bool setting b => exact { h with }
  | pass s eHash sSalt =>
    obtain ⟨hs, hsalt⟩ := hcall
    cases eHash
    · exact { h with pass := ⟨hs, plain_nil⟩, salt := fun _ => rfl }
    · exact { h with pass := ⟨hs, hsalt⟩, salt := fun hno => by rcases hno with hno | hno <;> cases hno }
    · exact { h with pass := ⟨hs, hsalt⟩, salt := fun hno => by rcases hno with hno | hno <;> cases hno }
    · exact { h with pass := ⟨hs, plain_nil⟩, salt := fun _ => rfl }
  | addAllowedHost sHostMask =>
    rw [CUser.call, CUser.addAllowedHost]
    split_ifs with hno
    · exact h
    · refine { h with hosts := fun sHost hHost => ?_ }
      rcases (OrdSet.mem_insert _ _ _).1 hHost with rfl | hHost
      · exact hcall (not_or.1 hno).1
      · exact h.hosts sHost hHost
  | remAllowedHost sHostMask =>
    exact { h with hosts := fun sHost hHost => h.hosts sHost ((OrdSet.mem_erase _ _ _).1 hHost).2 }
  | clearAllowedHosts => exact { h with hosts := fun sHost hHost => absurd hHost (OrdSet.not_mem_empty sHost) }
  | addCTCPReply sCTCP sReply => exact h.addCTCPReply hcall.1 hcall.2
  | delCTCPReply sCTCP => exact { h with replies := fun it hit => h.replies it (mem_of_mem_filter hit) }

theorem WellSet.run (h : WellSet user) {calls : List Call} (hcalls : ∀ call ∈ calls, call.Plain) :
    WellSet (user.run calls) := by
  induction calls generalizing user with
  | nil => exact h
  | cons call calls ih =>
    obtain ⟨hcall, hcalls⟩ := forall_mem_cons.1 hcalls
    exact ih (h.call hcall) hcalls

end Setters

/-! ## What is written -/

variable {user : CUser}

theorem Plain.single (h : Plain s) : ∀ c ∈ s, Single c :=
  fun c hc => (h (ne_nil_of_mem hc)).single c hc

theorem plain_getString (h : WellSet user) (bAllowDefault : Bool) (setting : StringSetting) :
    Plain (user.getString bAllowDefault setting) := by
  have hreal : Plain (lit "ZNC - https://znc.in") := by decide
  have hquit : Plain (lit "%znc%") := by decide
  unfold CUser.getString
  cases setting
  all_goals
    dsimp only
    first
      | exact h.strings _
      | (split_ifs
         · exact h.name.clean
         · exact h.strings _)
      | (split_ifs
         · exact h.strings _
         · first
             | exact hreal
             | exact hquit)

theorem single_values (znc : CZNC) (h : WellSet user) (e : Entry) :
    ∀ sValue ∈ user.values znc e, ∀ c ∈ sValue, Single c := by
  intro sValue hvalue
  cases e with
  | string setting =>
    have hplain : Plain sValue := by
      cases setting
      case statusPrefix =>
        rw [CUser.values] at hvalue
        split_ifs at hvalue
        · rw [mem_singleton.1 hvalue]
          exact h.strings .statusPrefix
        · cases hvalue
      all_goals
        rw [mem_singleton.1 hvalue]
        exact plain_getString h true _
    exact hplain.single
  | uint setting =>
    rw [mem_singleton.1 hvalue]
    intro c hc
    have hdigits : ∀ d ∈ [0, ch '\r', ch '\n'], isdigit d = false := all_iff_forall_prop.1 (by decide)
    have hno : c ∉ [0, ch '\r', ch '\n'] := fun hmem =>
      not_mem_uintText (hdigits c hmem) _ hc
    simpa [Single] using hno
  | bool setting =>
    rw [mem_singleton.1 hvalue]
    exact all_iff_forall_prop.1 (by cases user.bools setting <;> decide)
  | allowedHost => exact (h.hosts sValue hvalue).single
  | ctcpReply =>
    obtain ⟨itb, hit, rfl⟩ := mem_map.1 hvalue
    obtain ⟨hname, -, hupper, hreply⟩ := h.replies itb hit
    simp only [hupper, forall_mem_append]
    exact ⟨⟨hname.single, all_iff_forall_prop.1 (by decide)⟩, hreply.single⟩

theorem single_passTable (h : WellSet user) :
    ∀ e ∈ user.passTable, ∀ sValue ∈ e.2, ∀ c ∈ sValue, Single c := by
  simp only [CUser.passTable, forall_mem_cons]
  refine ⟨?_, ?_, ?_, fun e he => nomatch he⟩
  · exact ⟨h.pass.2.single, fun _ hs => nomatch hs⟩
  · refine ⟨?_, fun _ hs => nomatch hs⟩
    exact all_iff_forall_prop.1 (by cases user.eHashType <;> decide)
  · exact ⟨h.pass.1.single, fun _ hs => nomatch hs⟩

/-! ### Configs of tables -/

theorem mem_valuesOf {k sValue : CString} {table : List (CString × VCString)} (h : sValue ∈ valuesOf k table) :
    (∃ e ∈ table, e.1 = k ∧ sValue ∈ e.2) ∧ sValue ≠ [] := by
  obtain ⟨e, he, hmem⟩ := mem_flatMap.1 h
  split_ifs at hmem with hk
  · obtain ⟨hvalue, hne⟩ := mem_filter.1 hmem
    exact ⟨⟨e, he, hk, hvalue⟩, by simpa using hne⟩
  · cases hmem

theorem mem_addTable {table : List (CString × VCString)} (hnames : [] ∉ table.map Prod.fst) {c : CConfig}
    (hc : c.configEntries = .empty) {it : CString × VCString} (hit : it ∈ (addTable table c).configEntries.entries) :
    it.1 ∈ table.map Prod.fst ∧ it.2 = valuesOf it.1 table := by
  have hfull : Full c := by
    intro k
    rw [hc, find_empty]
    exact fun h => by cases h
  obtain ⟨hfullTable, -, hlook⟩ := NetworkClone.addTable_spec table c
  have hfind := (mem_entries_iff _ it.1 it.2).1 hit
  have hvalues := hlook hnames it.1
  rw [look, hfind, look, hc, find_empty] at hvalues
  refine ⟨?_, hvalues⟩
  by_contra hno
  rw [NetworkClone.valuesOf_of_not_mem hno] at hvalues
  exact hfullTable hfull it.1 (hfind.trans (congrArg some hvalues))

theorem built_addTable (table : List (CString × VCString)) {c : CConfig} (h : Built c) : Built (addTable table c) := by
  have hvalues (sName : CString) (values : VCString) {c : CConfig} (h : Built c) :
      Built (values.foldl (fun c sValue => c.addKeyValuePair sName sValue) c) := by
    induction values generalizing c with
    | nil => exact h
    | cons sValue values ih => exact ih (h.addKeyValuePair sName sValue)
  induction table generalizing c with
  | nil => exact h
  | cons e table ih => exact ih (hvalues e.1 e.2 h)

theorem valueOk_of_mem {table : List (CString × VCString)}
    (htable : ∀ e ∈ table, ∀ sValue ∈ e.2, ∀ c ∈ sValue, Single c)
    {k sValue : CString} (h : sValue ∈ valuesOf k table) : ValueOk sValue ∧ removed sValue = sValue := by
  obtain ⟨⟨e, he, -, hvalue⟩, hne⟩ := mem_valuesOf h
  have hsingle := htable e he sValue hvalue
  have hremoved : removed sValue = sValue := filter_eq_self.2 fun c hc => by simpa using hsingle c hc
  refine ⟨(valueOk_iff sValue).2 ?_, hremoved⟩
  rw [singleLine_eq_self hsingle, hremoved]
  exact ⟨hne, rfl⟩

/-! ### The config of a user -/

/-- the rows of `ToConfig` -/
def CUser.rows (znc : CZNC) (user : CUser) : List (CString × VCString) :=
  entries.map fun e => (e.1, user.values znc e.2)

theorem CUser.keys_rows (znc : CZNC) (user : CUser) : (user.rows znc).map Prod.fst = entries.map Prod.fst := by
  rw [CUser.rows, map_map]
  rfl

theorem single_rows (znc : CZNC) (h : WellSet user) : ∀ e ∈ user.rows znc, ∀ sValue ∈ e.2, ∀ c ∈ sValue, Single c := by
  intro e he
  obtain ⟨e', -, rfl⟩ := mem_map.1 he
  exact single_values znc h e'.2

/-- the keys of the config and those of the password -/
def keys : List CString := entries.map Prod.fst ++ [lit "Salt", lit "Method", lit "Hash"]

theorem keys_ok : ∀ k ∈ keys, KeyOk k ∧ ∀ b ∈ k.head?, b ∉ marks := keys_good (by decide +kernel)

theorem nil_not_mem_keys : [] ∉ keys := by decide +kernel

theorem subConfigs_toConfig (znc : CZNC) (user : CUser) :
    (user.toConfig znc).subConfigs =
      .block (lit "Pass") (lit "password") user.passConfig.configEntries .nil .nil := by
  have hpass : user.passConfig.subConfigs = .nil := (NetworkClone.addTable_spec user.passTable .empty).2.1
  have hblock : (CConfig.empty.addSubConfig (lit "Pass") (lit "password") user.passConfig).2.subConfigs =
      .block (lit "Pass") (lit "password") user.passConfig.configEntries user.passConfig.subConfigs .nil := rfl
  rw [CUser.toConfig, (NetworkClone.addTable_spec _ _).2.1, hblock, hpass]

theorem built_toConfig (znc : CZNC) (user : CUser) : Built (user.toConfig znc) :=
  built_addTable _ (Built.empty.addSubConfig (built_addTable _ Built.empty) _ _)

theorem mem_config (znc : CZNC) (h : WellSet user) {it : CString × VCString}
    (hit : it ∈ (user.toConfig znc).configEntries.entries ∨ it ∈ user.passConfig.configEntries.entries) :
    it.1 ∈ keys ∧ ∀ sValue ∈ it.2, ValueOk sValue ∧ removed sValue = sValue := by
  have hnames : [] ∉ (user.rows znc).map Prod.fst := by
    rw [CUser.keys_rows]
    exact fun hmem => nil_not_mem_keys (mem_append_left _ hmem)
  have hpassKeys : user.passTable.map Prod.fst = [lit "Salt", lit "Method", lit "Hash"] := rfl
  have hpassNames : [] ∉ user.passTable.map Prod.fst := by
    rw [hpassKeys]
    exact fun hmem => nil_not_mem_keys (mem_append_right _ hmem)
  rcases hit with hit | hit
  · obtain ⟨hkey, hvalues⟩ := @mem_addTable (user.rows znc) hnames _ rfl it hit
    rw [CUser.keys_rows] at hkey
    refine ⟨mem_append_left _ hkey, fun sValue hvalue => ?_⟩
    rw [hvalues] at hvalue
    exact valueOk_of_mem (single_rows znc h) hvalue
  · obtain ⟨hkey, hvalues⟩ := mem_addTable hpassNames rfl hit
    rw [hpassKeys] at hkey
    refine ⟨mem_append_right _ hkey, fun sValue hvalue => ?_⟩
    rw [hvalues] at hvalue
    exact valueOk_of_mem (single_passTable h) hvalue

/-! ## What is read -/

theorem look_pushBack (c : CConfig) (sName sValue k : CString) :
    look { c with configEntries := EntryMap.pushBack c.configEntries sName sValue } k =
      look c k ++ if sName = k then [sValue] else [] := by
  rw [look, EntryMap.pushBack, find_insert]
  by_cases hk : k = sName
  · rw [if_pos hk, if_pos hk.symm, hk]
    rfl
  · rw [if_neg hk, if_neg (Ne.symm hk), append_nil]
    rfl

theorem full_pushBack {c : CConfig} (h : Full c) (sName sValue : CString) :
    Full { c with configEntries := EntryMap.pushBack c.configEntries sName sValue } := by
  intro k
  dsimp only
  rw [EntryMap.pushBack, find_insert]
  split_ifs
  · simp
  · exact h k

theorem addEntries_spec (f : CString → CString) (es : List (CString × VCString)) {c : CConfig} (h : Full c) :
    Full (addEntries f c es) ∧ ∀ k, look (addEntries f c es) k =
      look c k ++ es.flatMap fun it => if it.1.asLower = k then it.2.map f else [] := by
  have hvalues (sName : CString) (values : VCString) {c : CConfig} (h : Full c) :
      let c' : CConfig :=
        { c with
          configEntries := values.foldl (fun m sValue => EntryMap.pushBack m sName (f sValue)) c.configEntries }
      Full c' ∧ ∀ k, look c' k = look c k ++ if sName = k then values.map f else [] := by
    induction values generalizing c with
    | nil => exact ⟨h, fun k => by simp⟩
    | cons sValue values ih =>
      obtain ⟨hfull, hlook⟩ := ih (full_pushBack h sName (f sValue))
      refine ⟨hfull, fun k => (hlook k).trans ?_⟩
      rw [look_pushBack]
      split_ifs <;> simp
  induction es generalizing c with
  | nil => exact ⟨h, fun k => (append_nil _).symm⟩
  | cons it es ih =>
    obtain ⟨hfull, hlook⟩ := hvalues it.1.asLower it.2 h
    obtain ⟨hfullRest, hlookRest⟩ := ih hfull
    refine ⟨hfullRest, fun k => (hlookRest k).trans ?_⟩
    rw [hlook, flatMap_cons, append_assoc]

theorem flatMap_ite_of_mem {α β : Type} {l : List α} (hnodup : l.Nodup) {a : α} (ha : a ∈ l) {p : α → Prop}
    [DecidablePred p] (hp : ∀ b ∈ l, p b ↔ b = a) (g : α → List β) :
    (l.flatMap fun b => if p b then g b else []) = g a := by
  obtain ⟨l₁, l₂, rfl⟩ := append_of_mem ha
  have hnone {l₀ : List α} (hsub : ∀ b ∈ l₀, b ∈ l₁ ++ a :: l₂) (hne : a ∉ l₀) :
      (l₀.flatMap fun b => if p b then g b else []) = [] := by
    rw [flatMap_eq_nil_iff]
    intro b hb
    refine if_neg fun hmem => hne ?_
    rwa [← (hp b (hsub b hb)).1 hmem]
  obtain ⟨hfirst, hsecond⟩ : a ∉ l₁ ∧ a ∉ l₂ := by
    rw [nodup_append, nodup_cons] at hnodup
    exact ⟨fun hmem => hnodup.2.2 a hmem a mem_cons_self rfl, hnodup.2.1.1⟩
  rw [flatMap_append, flatMap_cons, hnone (fun b hb => mem_append_left _ hb) hfirst,
    hnone (fun b hb => mem_append_right _ (mem_cons_of_mem _ hb)) hsecond,
    if_pos ((hp a ha).2 rfl), append_nil, nil_append]

theorem valuesOf_of_mem {table : List (CString × VCString)} (hnodup : (table.map Prod.fst).Nodup)
    {e : CString × VCString} (he : e ∈ table) : valuesOf e.1 table = nonempty e.2 := by
  refine flatMap_ite_of_mem (List.Nodup.of_map _ hnodup) he (fun b hb => ?_) fun b => nonempty b.2
  exact ⟨fun heq => inj_on_of_nodup_map hnodup hb he heq, fun heq => by rw [heq]⟩

/-- **The values of a table** when they are read again: under the keys in lower case, and without empty ones. -/
theorem look_reread {table : List (CString × VCString)} (hnames : [] ∉ table.map Prod.fst)
    (hlower : (table.map fun e => e.1.asLower).Nodup) (htable : ∀ e ∈ table, ∀ sValue ∈ e.2, ∀ c ∈ sValue, Single c)
    {c : CConfig} (hc : c.configEntries = .empty) :
    let c' := addEntries removed .empty (addTable table c).configEntries.entries
    Full c' ∧ (∀ e ∈ table, look c' e.1.asLower = nonempty e.2) ∧
      ∀ k ∉ table.map fun e => e.1.asLower, look c' k = [] := by
  obtain ⟨hfull, hlook⟩ := addEntries_spec removed (addTable table c).configEntries.entries NetworkClone.full_empty
  have hempty (k : CString) : look .empty k = [] := by rw [look, CConfig.empty, find_empty]; rfl
  refine ⟨hfull, fun e he => ?_, fun k hk => ?_⟩
  · have hkeys : ∀ it ∈ (addTable table c).configEntries.entries, it.1.asLower = e.1.asLower ↔ it.1 = e.1 := by
      intro it hit
      refine ⟨fun heq => ?_, fun heq => by rw [heq]⟩
      obtain ⟨e', he', hkey⟩ := mem_map.1 (mem_addTable hnames hc hit).1
      rw [← hkey] at heq ⊢
      rw [inj_on_of_nodup_map hlower he' he heq]
    have hvalues : look (addTable table c) e.1 = nonempty e.2 := by
      have hnone : look c e.1 = [] := by rw [look, hc, find_empty]; rfl
      have hnodup : (table.map Prod.fst).Nodup := by
        refine List.Nodup.of_map CString.asLower ?_
        rwa [map_map]
      rw [(NetworkClone.addTable_spec table c).2.2 hnames, hnone, nil_append, valuesOf_of_mem hnodup he]
    rw [hlook, hempty, nil_append, ← hvalues, look]
    cases hfind : (addTable table c).configEntries.find e.1 with
    | none =>
      refine flatMap_eq_nil_iff.2 fun it hit => if_neg fun heq => ?_
      rw [← (hkeys it hit).1 heq, (mem_entries_iff _ it.1 it.2).1 hit] at hfind
      cases hfind
    | some values =>
      have hmem := (mem_entries_iff _ e.1 values).2 hfind
      have hlist : (addTable table c).configEntries.entries.Nodup :=
        List.Nodup.of_map Prod.fst (keys_nodup _)
      rw [flatMap_ite_of_mem hlist hmem (fun it hit => ?_) fun it => it.2.map removed]
      · rw [look, hfind, Option.getD_some] at hvalues
        rw [Option.getD_some, hvalues]
        refine map_congr_left (g := id) (fun sValue hvalue => ?_) |>.trans (map_id _)
        rw [← valuesOf_of_mem (List.Nodup.of_map CString.asLower (by rwa [map_map])) he] at hvalue
        exact (valueOk_of_mem htable hvalue).2
      · rw [hkeys it hit]
        refine ⟨fun heq => ?_, fun heq => by rw [heq]⟩
        refine Prod.ext heq (Option.some.inj ?_)
        rw [← hfind, ← heq, (mem_entries_iff _ it.1 it.2).1 hit]
  · rw [hlook, hempty, nil_append, flatMap_eq_nil_iff]
    intro it hit
    refine if_neg fun heq => hk ?_
    obtain ⟨e', he', hkey⟩ := mem_map.1 (mem_addTable hnames hc hit).1
    exact mem_map.2 ⟨e', he', by rw [hkey, heq]⟩

/-- the config that is read for the user -/
def CUser.loaded (znc : CZNC) (user : CUser) : CConfig :=
  (addEntries removed .empty (user.toConfig znc).configEntries.entries).emplaceBack (lit "pass") (lit "password")
    (addEntries removed .empty user.passConfig.configEntries.entries)

theorem parse_writeConfig (znc : CZNC) (h : WellSet user) :
    parse (znc.writeConfig user) =
      .ok (CConfig.empty.emplaceBack (lit "user") user.sUsername (user.loaded znc)) := by
  set c := (CConfig.empty.addSubConfig (lit "User") user.sUsername (user.toConfig znc)).2 with hc
  have hsubs : c.subConfigs = .block (lit "User") user.sUsername (user.toConfig znc).configEntries
      (.block (lit "Pass") (lit "password") user.passConfig.configEntries .nil .nil) .nil := by
    rw [← subConfigs_toConfig znc user]
    rfl
  have hentries {it : CString × VCString} (hit : it ∈ c.allEntries) :
      it ∈ (user.toConfig znc).configEntries.entries ∨ it ∈ user.passConfig.configEntries.entries := by
    have hall : c.allEntries = c.subConfigs.allEntries := rfl
    rw [hall, hsubs] at hit
    simpa [SubConfigs.allEntries] using hit
  have hmem {it : CString × VCString} (hit : it ∈ c.allEntries) := mem_config znc h (hentries hit)
  have hformed : Formed c := by
    refine ⟨fun it hit => (keys_ok it.1 (hmem hit).1).1, fun block hblock => ?_⟩
    have hpass : TagOk (lit "Pass") ∧ Tidy (lit "password") := by decide
    have huser : TagOk (lit "User") := by decide
    rw [hsubs] at hblock
    simp only [SubConfigs.allBlocks, append_nil, mem_cons, not_mem_nil, or_false] at hblock
    rcases hblock with rfl | rfl
    · exact ⟨huser, h.name.tidy⟩
    · exact hpass
  have hgood : Good c := by
    refine { hformed with values := fun it hit sValue hvalue => ((hmem hit).2 sValue hvalue).1, distinct := ?_ }
    rw [hsubs]
    simp [SubConfigs.Distinct, SubConfigs.labels]
  have hbuilt : Built c := Built.empty.addSubConfig (built_toConfig znc user) _ _
  have hback : parse (c.write 0) = .ok (c.lowered removed) :=
    (round_trip_iff hbuilt fun it hit => (keys_ok it.1 (hmem hit).1).2).2 hgood
  rw [CZNC.writeConfig, ← hc, hback, CConfig.lowered, hsubs]
  rfl

/-! ### Tables -/

theorem nodup_lower : (entries.map fun e => e.1.asLower).Nodup := by decide +kernel

theorem nodup_entries : (entries.map Prod.snd).Nodup := by decide

theorem nodup_readers : (readers.map Prod.fst).Nodup := by decide +kernel

/-- **Each key that is written is read** into what it was written from. -/
theorem readers_of_entries : ∀ e ∈ entries, (e.1.asLower, Reader.entry e.2) ∈ readers := by decide +kernel

/-- **Everything is written.** -/
theorem mem_entries (e : Entry) : e ∈ entries.map Prod.snd := by
  cases e with
  | string setting => cases setting <;> decide
  | uint setting => cases setting <;> decide
  | bool setting => cases setting <;> decide
  | allowedHost => decide
  | ctcpReply => decide

theorem look_loaded (znc : CZNC) (h : WellSet user) :
    Full (user.loaded znc) ∧ (∀ e ∈ entries, look (user.loaded znc) e.1.asLower = nonempty (user.values znc e.2)) ∧
      ∀ k ∉ entries.map fun e => e.1.asLower, look (user.loaded znc) k = [] := by
  have hnames : [] ∉ (user.rows znc).map Prod.fst := by
    rw [CUser.keys_rows]
    exact fun hmem => nil_not_mem_keys (mem_append_left _ hmem)
  have hlower : ((user.rows znc).map fun e => e.1.asLower) = entries.map fun e => e.1.asLower := by
    rw [CUser.rows, map_map]
    rfl
  have hc : (CConfig.empty.addSubConfig (lit "Pass") (lit "password") user.passConfig).2.configEntries = .empty := rfl
  obtain ⟨hfull, hvalues, hnone⟩ := look_reread hnames (by rw [hlower]; exact nodup_lower) (single_rows znc h) hc
  rw [hlower] at hnone
  refine ⟨hfull, fun e he => ?_, hnone⟩
  exact hvalues (e.1, user.values znc e.2) (mem_map.2 ⟨e, he, rfl⟩)

/-! ## The new user -/

/-- a new user, whose status prefix is that for all users if there is one -/
def CZNC.fresh (znc : CZNC) (sUsername : CString) : CUser :=
  if znc.sStatusPrefix = [] then .new sUsername else (CUser.new sUsername).putString .statusPrefix znc.sStatusPrefix

variable {znc : CZNC}

theorem newUser_eq (h : znc.Accepted) (sUsername : CString) :
    znc.newUser sUsername = .ok (znc.fresh sUsername) := by
  simp only [CZNC.newUser, CZNC.fresh]
  by_cases hnone : znc.sStatusPrefix = []
  · rw [if_pos hnone, if_pos hnone]
  · have hok : CUser.statusPrefixOk znc.sStatusPrefix = true := h.resolve_left hnone
    rw [if_neg hnone, if_neg hnone, CUser.setStatusPrefix, if_pos hok, if_pos rfl, if_neg hnone]

/-- the user that comes back -/
def CUser.reloaded (znc : CZNC) (user : CUser) : CUser :=
  { user with
    strings := fun setting =>
      match setting with
      | .timestampFormat =>
        if user.strings .timestampFormat = [] then lit "[%H:%M:%S]" else user.strings .timestampFormat
      | .clientEncoding =>
        if user.strings .clientEncoding = [] then [] else znc.toEnv.fixupEncoding (user.strings .clientEncoding)
      | _ => user.getString true setting }

/-- what an entry is about is the same for two users -/
def SameAt (user user' : CUser) : Entry → Prop
  | .string setting => user.strings setting = user'.strings setting
  | .uint setting => user.uints setting = user'.uints setting
  | .bool setting => user.bools setting = user'.bools setting
  | .allowedHost => user.ssAllowedHosts = user'.ssAllowedHosts
  | .ctcpReply => user.mssCTCPReplies = user'.mssCTCPReplies

theorem SameAt.refl (user : CUser) (e : Entry) : SameAt user user e := by cases e <;> rfl

theorem SameAt.trans {a b c : CUser} {e : Entry} (h : SameAt a b e) (h' : SameAt b c e) : SameAt a c e := by
  cases e <;> exact Eq.trans h h'

/-- only one entry is changed, and it is that of the user that comes back -/
structure Restores (znc : CZNC) (user cur cur' : CUser) (e : Entry) : Prop where
  here : SameAt cur' (user.reloaded znc) e
  others : ∀ e' ≠ e, SameAt cur' cur e'
  name : cur'.sUsername = cur.sUsername

theorem Restores.self {cur : CUser} {e : Entry} (h : SameAt cur (user.reloaded znc) e) :
    Restores znc user cur cur e := ⟨h, fun e' _ => SameAt.refl cur e', rfl⟩

theorem restores_putString {cur : CUser} {setting : StringSetting}
    (h : s = (user.reloaded znc).strings setting) : Restores znc user cur (cur.putString setting s)
      (.string setting) := by
  refine ⟨?_, fun e' he' => ?_, rfl⟩
  · rw [SameAt, CUser.strings_putString, if_pos rfl, h]
  · cases e' with
    | string other =>
      rw [SameAt, CUser.strings_putString, if_neg]
      rintro rfl
      exact he' rfl
    | uint | bool | allowedHost | ctcpReply => rfl

theorem read_string (h : WellSet user) {cur : CUser} {setting : StringSetting}
    (hcur : SameAt cur (znc.fresh user.sUsername) (.string setting)) :
    ∃ cur', (nonempty (user.values znc (.string setting))).foldlM
        (fun (user : CUser) sValue => user.read znc (.entry (.string setting)) sValue) cur = .ok cur' ∧
      Restores znc user cur cur' (.string setting) := by
  -- a value that is not written is that of the new user, and another one is set as it is
  have hall {s : CString} (hvalues : user.values znc (.string setting) = [s])
      (hempty : s = [] → (znc.fresh user.sUsername).strings setting = (user.reloaded znc).strings setting)
      (hset : s ≠ [] → cur.read znc (.entry (.string setting)) s =
        .ok (cur.putString setting ((user.reloaded znc).strings setting))) :
      ∃ cur', (nonempty (user.values znc (.string setting))).foldlM
          (fun (user : CUser) sValue => user.read znc (.entry (.string setting)) sValue) cur = .ok cur' ∧
        Restores znc user cur cur' (.string setting) := by
    rw [hvalues]
    by_cases hs : s = []
    · refine ⟨cur, by rw [hs]; rfl, Restores.self ?_⟩
      exact SameAt.trans (e := .string setting) hcur (hempty hs)
    · refine ⟨_, ?_, restores_putString rfl⟩
      rw [nonempty, filter_cons_of_pos (by simpa using hs), filter_nil, foldlM_cons, hset hs]
      rfl
  have hfresh (hne : setting ≠ .statusPrefix) :
      (znc.fresh user.sUsername).strings setting = (CUser.new user.sUsername).strings setting := by
    rw [CZNC.fresh]
    split_ifs
    · rfl
    · rw [CUser.strings_putString, if_neg hne]
  have hname {s : CString} (hs : (if true && s = [] then makeCleanUsername user.sUsername else s) = []) :
      makeCleanUsername user.sUsername = [] := by
    simp only [Bool.true_and, decide_eq_true_eq] at hs
    split_ifs at hs with hnil
    · exact hs
    · exact absurd hs hnil
  cases setting
  case nick =>
    refine hall rfl (fun hs => ?_) fun _ => rfl
    rw [hfresh (by decide)]
    exact (hname hs).trans hs.symm
  case ident =>
    refine hall rfl (fun hs => ?_) fun _ => rfl
    rw [hfresh (by decide)]
    exact (hname hs).trans hs.symm
  case timestampFormat =>
    refine hall rfl (fun hs => ?_) fun hs => ?_
    · rw [hfresh (by decide)]
      exact (if_pos hs).symm
    · exact congrArg (fun s => Except.ok (cur.putString .timestampFormat s)) (if_neg hs).symm
  case clientEncoding =>
    refine hall rfl (fun hs => ?_) fun hs => ?_
    · rw [hfresh (by decide)]
      exact (if_pos hs).symm
    · exact congrArg (fun s => Except.ok (cur.putString .clientEncoding s)) (if_neg hs).symm
  case language =>
    refine hall rfl (fun hs => ?_) fun hs => ?_
    · rw [hfresh (by decide)]
      exact hs.symm
    · have hbytes : ((user.strings .language).all fun c => isalpha c || c = ch '-' || c = ch '_') = true := by
        rw [all_eq_true]
        intro c hc
        rcases h.language c hc with hc | hc <;> simp [hc]
      have hsame : ((user.strings .language).map fun c => if c = ch '_' then ch '-' else c) =
          user.strings .language := by
        refine (map_congr_left (g := id) fun c hc => if_neg ?_).trans (map_id _)
        rintro rfl
        rcases h.language _ hc with hc | hc
        · exact absurd hc (by decide)
        · exact absurd hc (by decide)
      have hset : cur.setLanguage (user.strings .language) =
          (true, cur.putString .language (user.strings .language)) := by
        rw [CUser.setLanguage, if_pos hbytes, hsame]
      exact congrArg (fun r : Bool × CUser => Except.ok r.2) hset
  case statusPrefix =>
    have hok := h.statusPrefix
    have hne : user.strings .statusPrefix ≠ [] := by
      intro hnil
      rw [hnil] at hok
      exact absurd hok (by decide)
    by_cases hsame : znc.sStatusPrefix = user.strings .statusPrefix
    · have hvalues : user.values znc (.string .statusPrefix) = [] := if_neg (not_not.2 hsame)
      refine ⟨cur, by rw [hvalues]; rfl, Restores.self ?_⟩
      refine SameAt.trans (e := .string .statusPrefix) hcur ?_
      rw [SameAt, CZNC.fresh, if_neg (by rw [hsame]; exact hne), CUser.strings_putString, if_pos rfl, hsame]
      rfl
    · refine hall (if_pos hsame) (fun hs => absurd hs hne) fun _ => ?_
      have hset : cur.setStatusPrefix (user.strings .statusPrefix) =
          (true, cur.putString .statusPrefix (user.strings .statusPrefix)) := by
        rw [CUser.setStatusPrefix, if_pos hok, if_neg hne]
      rw [CUser.read, hset, if_pos rfl]
      rfl
  all_goals
    refine hall rfl (fun hs => ?_) fun _ => rfl
    rw [hfresh (by decide)]
    exact hs.symm

theorem setUInt_forced (znc : CZNC) (cur : CUser) (setting : UIntSetting) (u : UInt32) :
    cur.setUInt znc setting u true = cur.putUInt setting u := by
  cases setting <;> rfl

theorem foldl_addAllowedHost (l : List CString) (hl : ∀ sHost ∈ l, sHost ≠ []) (cur : CUser) :
    ∃ ssAllowedHosts, l.foldl (fun (user : CUser) sHost => (user.addAllowedHost sHost).2) cur =
        { cur with ssAllowedHosts } ∧
      ∀ sHost, sHost ∈ ssAllowedHosts ↔ sHost ∈ l ∨ sHost ∈ cur.ssAllowedHosts := by
  induction l generalizing cur with
  | nil => exact ⟨cur.ssAllowedHosts, rfl, fun sHost => by simp⟩
  | cons sFirst l ih =>
    obtain ⟨hne, hl⟩ := forall_mem_cons.1 hl
    obtain ⟨ssAllowedHosts, hfold, hmem⟩ := ih hl (cur.addAllowedHost sFirst).2
    refine ⟨ssAllowedHosts, ?_, fun sHost => ?_⟩
    · rw [foldl_cons, hfold, CUser.addAllowedHost]
      split_ifs <;> rfl
    · have hfirst : sHost ∈ (cur.addAllowedHost sFirst).2.ssAllowedHosts ↔
          sHost = sFirst ∨ sHost ∈ cur.ssAllowedHosts := by
        rw [CUser.addAllowedHost]
        split_ifs with hold
        · refine ⟨.inr, fun hor => hor.elim (fun heq => ?_) id⟩
          rw [heq]
          exact hold.resolve_left hne
        · exact OrdSet.mem_insert _ _ _
      rw [hmem, hfirst, mem_cons, or_left_comm, or_assoc]

theorem addCTCPReply_line (cur : CUser) {sCTCP sReply : CString} (hname : Tidy sCTCP) (hspace : 0x20 ∉ sCTCP)
    (hupper : sCTCP.asUpper = sCTCP) (hreply : Plain sReply) :
    (cur.addCTCPReply ((sCTCP.asUpper ++ lit " " ++ sReply).token 0 false 0x20 false)
      ((sCTCP.asUpper ++ lit " " ++ sReply).token 1 true 0x20 false)).2 =
      { cur with mssCTCPReplies := cur.mssCTCPReplies.insert sCTCP sReply } := by
  have hsplit : sCTCP.asUpper ++ lit " " ++ sReply = sCTCP ++ 0x20 :: sReply := by
    rw [hupper, append_assoc]
    rfl
  have hfirst : sReply.dropWhile (· = 0x20) = sReply := by
    cases sReply with
    | nil => rfl
    | cons c s =>
      refine dropWhile_cons_of_neg fun hc => (hreply (cons_ne_nil c s)).first c rfl ?_
      rw [show c = 0x20 by simpa using hc]
      decide
  rw [hsplit, token_zero_append hname.ne hspace, token_rest hname.ne hspace, hfirst, CUser.addCTCPReply,
    if_neg hspace, if_neg hname.ne, hupper]

/-- **One key:** what is written for it is read into what it was written from. -/
theorem read_entry (h : WellSet user) {cur : CUser} {e : Entry}
    (hcur : SameAt cur (znc.fresh user.sUsername) e) :
    ∃ cur', (nonempty (user.values znc e)).foldlM
        (fun (user : CUser) sValue => user.read znc (.entry e) sValue) cur = .ok cur' ∧
      Restores znc user cur cur' e := by
  have hfresh : (znc.fresh user.sUsername).ssAllowedHosts = .empty ∧
      (znc.fresh user.sUsername).mssCTCPReplies = .empty := by
    rw [CZNC.fresh]
    split_ifs <;> exact ⟨rfl, rfl⟩
  cases e with
  | string setting => exact read_string h hcur
  | uint setting =>
    refine ⟨cur.putUInt setting (user.uints setting), ?_, ?_, fun e' he' => ?_, rfl⟩
    · rw [CUser.values, nonempty, filter_cons_of_pos (by simpa using NetworkClone.uintText_ne _),
        filter_nil, foldlM_cons, CUser.read, toUInt_uintText, setUInt_forced]
      rfl
    · rw [SameAt, CUser.uints_putUInt, if_pos rfl]
      rfl
    · cases e' with
      | uint other =>
        rw [SameAt, CUser.uints_putUInt, if_neg]
        rintro rfl
        exact he' rfl
      | string | bool | allowedHost | ctcpReply => rfl
  | bool setting =>
    refine ⟨cur.setBool setting (user.bools setting), ?_, ?_, fun e' he' => ?_, rfl⟩
    · rw [CUser.values, nonempty, filter_cons_of_pos (by simpa using NetworkClone.boolText_ne _),
        filter_nil, foldlM_cons, CUser.read, toBool_boolText]
      rfl
    · rw [SameAt, CUser.bools_setBool, if_pos rfl]
      rfl
    · cases e' with
      | bool other =>
        rw [SameAt, CUser.bools_setBool, if_neg]
        rintro rfl
        exact he' rfl
      | string | uint | allowedHost | ctcpReply => rfl
  | allowedHost =>
    have hne : ∀ sHost ∈ user.ssAllowedHosts.toList, sHost ≠ [] := fun sHost hHost => (h.hosts sHost hHost).ne
    have hvalues : nonempty (user.values znc .allowedHost) = user.ssAllowedHosts.toList :=
      filter_eq_self.2 fun sHost hHost => by simpa using hne sHost hHost
    obtain ⟨ssAllowedHosts, hfold, hmem⟩ := foldl_addAllowedHost _ hne cur
    have hhosts : ssAllowedHosts = user.ssAllowedHosts := by
      refine OrdSet.ext_mem fun sHost => ?_
      have hcur : cur.ssAllowedHosts = .empty := Eq.trans hcur hfresh.1
      rw [hmem, hcur]
      simp
    refine ⟨{ cur with ssAllowedHosts }, ?_, hhosts, fun e' he' => ?_, rfl⟩
    · rw [hvalues, ← hfold]
      exact foldlM_pure
    · cases e' with
      | allowedHost => exact absurd rfl he'
      | string | uint | bool | ctcpReply => rfl
  | ctcpReply =>
    have hrun (l : List (CString × CString)) (hl : ∀ it ∈ l, it ∈ user.mssCTCPReplies.entries) (cur : CUser) :
        (l.map fun itb => itb.1.asUpper ++ lit " " ++ itb.2).foldlM
            (fun (user : CUser) sValue => user.read znc (.entry .ctcpReply) sValue) cur =
          .ok { cur with mssCTCPReplies := l.foldl (fun m e => m.insert e.1 e.2) cur.mssCTCPReplies } := by
      induction l generalizing cur with
      | nil => rfl
      | cons it l ih =>
        obtain ⟨hit, hl⟩ := forall_mem_cons.1 hl
        obtain ⟨hname, hspace, hupper, hreply⟩ := h.replies it hit
        rw [map_cons, foldlM_cons, CUser.read, addCTCPReply_line cur hname hspace hupper hreply]
        exact ih hl _
    have hvalues : nonempty (user.values znc .ctcpReply) =
        user.mssCTCPReplies.entries.map fun itb => itb.1.asUpper ++ lit " " ++ itb.2 := by
      refine filter_eq_self.2 fun sValue hvalue => ?_
      obtain ⟨itb, -, rfl⟩ := mem_map.1 hvalue
      simp [lit]
    have hcur : cur.mssCTCPReplies = .empty := Eq.trans hcur hfresh.2
    have hreplies : user.mssCTCPReplies.entries.foldl (fun m e => m.insert e.1 e.2) cur.mssCTCPReplies =
        user.mssCTCPReplies := by
      rw [hcur]
      exact ofList_entries user.mssCTCPReplies
    refine ⟨{ cur with mssCTCPReplies := user.mssCTCPReplies }, ?_, rfl, fun e' he' => ?_, rfl⟩
    · rw [hvalues, hrun _ (fun it hit => hit), hreplies]
    · cases e' with
      | ctcpReply => exact absurd rfl he'
      | string | uint | bool | allowedHost => rfl

/-- **All keys** of a config: each entry of which the key is there is restored, and the others stay. -/
theorem read_entries (h : WellSet user) {src : CString → VCString}
    (hvalues : ∀ e ∈ entries, src e.1.asLower = nonempty (user.values znc e.2))
    (hnone : ∀ k ∉ entries.map fun e => e.1.asLower, src k = []) {rs : List (CString × Reader)}
    (hnodup : (rs.map Prod.fst).Nodup)
    (hrs : ∀ r ∈ rs, ∀ e ∈ entries, e.1.asLower = r.1 → r.2 = .entry e.2) {cur : CUser}
    (hcur : ∀ e ∈ entries, e.1.asLower ∈ rs.map Prod.fst → SameAt cur (znc.fresh user.sUsername) e.2) :
    ∃ cur', rs.foldlM (fun (user : CUser) reader =>
          (src reader.1).foldlM (fun (user : CUser) sValue => user.read znc reader.2 sValue) user) cur = .ok cur' ∧
      (∀ e ∈ entries, if e.1.asLower ∈ rs.map Prod.fst then SameAt cur' (user.reloaded znc) e.2 else SameAt cur' cur e.2) ∧
      cur'.sUsername = cur.sUsername := by
  induction rs generalizing cur with
  | nil => exact ⟨cur, rfl, fun e _ => by simpa using SameAt.refl cur e.2, rfl⟩
  | cons r rs ih =>
    obtain ⟨hfirst, hnodup⟩ := nodup_cons.1 hnodup
    obtain ⟨hr, hrs⟩ := forall_mem_cons.1 hrs
    rw [map_cons] at hcur
    by_cases hkey : ∃ e ∈ entries, e.1.asLower = r.1
    · obtain ⟨e, he, hlower⟩ := hkey
      have hsame := hcur e he (by rw [hlower]; exact mem_cons_self)
      obtain ⟨cur₁, hread, hrestores⟩ := @read_entry _ znc h _ _ hsame
      have hother : ∀ e' ∈ entries, e'.1.asLower ≠ r.1 → e'.2 ≠ e.2 := by
        intro e' he' hne heq
        rw [inj_on_of_nodup_map nodup_entries he' he heq] at hne
        exact hne hlower
      obtain ⟨cur', hrest, hdone, hname⟩ := @ih hnodup hrs cur₁ fun e' he' hmem => by
        have hne : e'.1.asLower ≠ r.1 := fun heq => hfirst (heq ▸ hmem)
        exact (hrestores.others e'.2 (hother e' he' hne)).trans (hcur e' he' (mem_cons_of_mem _ hmem))
      refine ⟨cur', ?_, fun e' he' => ?_, hname.trans hrestores.name⟩
      · rw [foldlM_cons, ← hlower, hvalues e he, hr e he hlower, hread]
        exact hrest
      · have hstep := hdone e' he'
        rw [map_cons]
        by_cases heq : e'.1.asLower = r.1
        · have hsame : e' = e := inj_on_of_nodup_map nodup_lower he' he (heq.trans hlower.symm)
          rw [if_neg (by rw [heq]; exact hfirst), hsame] at hstep
          rw [if_pos (by rw [heq]; exact mem_cons_self), hsame]
          exact hstep.trans hrestores.here
        · by_cases hmem : e'.1.asLower ∈ rs.map Prod.fst
          · rw [if_pos hmem] at hstep
            rwa [if_pos (mem_cons_of_mem _ hmem)]
          · rw [if_neg hmem] at hstep
            rw [if_neg (by simp [heq, hmem])]
            exact hstep.trans (hrestores.others e'.2 (hother e' he' heq))
    · have hsrc : src r.1 = [] := by
        refine hnone r.1 fun hmem => hkey ?_
        obtain ⟨e, he, hlower⟩ := mem_map.1 hmem
        exact ⟨e, he, hlower⟩
      obtain ⟨cur', hrest, hdone, hname⟩ := ih hnodup hrs fun e he hmem => hcur e he (mem_cons_of_mem _ hmem)
      refine ⟨cur', ?_, fun e he => ?_, hname⟩
      · rw [foldlM_cons, hsrc]
        exact hrest
      · have hne : e.1.asLower ≠ r.1 := fun heq => hkey ⟨e, he, heq⟩
        have hstep := hdone e he
        by_cases hmem : e.1.asLower ∈ rs.map Prod.fst
        · rw [if_pos hmem] at hstep
          rwa [map_cons, if_pos (mem_cons_of_mem _ hmem)]
        · rw [if_neg hmem] at hstep
          rwa [map_cons, if_neg (by simp [hne, hmem])]

/-! ### The password -/

theorem hashType_hashName (eHash : EHashType) : CUser.hashType (CUser.hashName eHash) = some eHash := by
  cases eHash <;> decide

theorem getD_of_toList {o : Option CString} (h : o.toList = nonempty [s]) : o.getD [] = s := by
  by_cases hs : s = []
  · rw [hs] at h ⊢
    cases o with
    | none => rfl
    | some sValue => cases h
  · rw [nonempty, filter_cons_of_pos (by simpa using hs)] at h
    cases o with
    | none => cases h
    | some sValue => exact (List.cons.inj h).1

theorem length_nonempty_singleton (s : CString) : (nonempty [s]).length ≤ 1 := length_filter_le _ _

theorem setPass_eq (h : WellSet user) (cur : CUser) :
    cur.setPass user.sPass user.eHashType user.sPassSalt =
      { cur with sPass := user.sPass, eHashType := user.eHashType, sPassSalt := user.sPassSalt } := by
  have hno := h.salt
  cases hhash : user.eHashType with
  | HASH_NONE =>
    rw [hno (.inl hhash)]
    rfl
  | HASH_ARGON2ID =>
    rw [hno (.inr hhash)]
    rfl
  | HASH_MD5 => rfl
  | HASH_SHA256 => rfl

theorem readPassConfig_of_look {c : CConfig} (hfull : Full c) (hsubs : c.subConfigs = .nil) {sHash sSalt : CString}
    {eHash : EHashType} (hhash : look c (lit "hash") = nonempty [sHash])
    (hmethod : look c (lit "method") = nonempty [CUser.hashName eHash]) (hsalt : look c (lit "salt") = nonempty [sSalt])
    (hnone : ∀ k ∉ [lit "salt", lit "method", lit "hash"], look c k = []) (cur : CUser) :
    cur.readPassConfig c = .ok (cur.setPass sHash eHash sSalt) := by
  obtain ⟨hfound₁, hwithout₁⟩ :=
    @findStringEntry_spec c hfull (lit "hash") (by rw [hhash]; exact length_nonempty_singleton _)
  have hmethod₁ : look (c.findStringEntry (lit "hash")).2 (lit "method") = nonempty [CUser.hashName eHash] := by
    rw [hwithout₁.look, if_neg (by decide), hmethod]
  obtain ⟨hfound₂, hwithout₂⟩ :=
    @findStringEntry_spec _ hwithout₁.full (lit "method") (by rw [hmethod₁]; exact length_nonempty_singleton _)
  set c₂ := ((c.findStringEntry (lit "hash")).2.findStringEntry (lit "method")).2 with hc₂
  have hsalt₂ : look c₂ (lit "salt") = nonempty [sSalt] := by
    rw [hwithout₂.look, if_neg (by decide), hwithout₁.look, if_neg (by decide), hsalt]
  obtain ⟨hfound₃, hwithout₃⟩ :=
    @findStringEntry_spec _ hwithout₂.full (lit "salt") (by rw [hsalt₂]; exact length_nonempty_singleton _)
  have hleft : (c₂.findStringEntry (lit "salt")).2.isEmpty = true := by
    refine isEmpty_of_look hwithout₃.full (fun k => ?_) ?_
    · rw [hwithout₃.look, hwithout₂.look, hwithout₁.look]
      split_ifs with h₃ h₂ h₁
      · rfl
      · rfl
      · rfl
      · exact hnone k (by simp [h₁, h₂, h₃])
    · rw [hwithout₃.subConfigs, hwithout₂.subConfigs, hwithout₁.subConfigs, hsubs]
  simp only [CUser.readPassConfig, ← hc₂, getD_of_toList (hfound₁.trans hhash), getD_of_toList (hfound₂.trans hmethod₁),
    getD_of_toList (hfound₃.trans hsalt₂), hashType_hashName]
  exact if_pos hleft

theorem readPassConfig_eq (h : WellSet user) (cur : CUser) :
    cur.readPassConfig (addEntries removed .empty user.passConfig.configEntries.entries) =
      .ok { cur with sPass := user.sPass, eHashType := user.eHashType, sPassSalt := user.sPassSalt } := by
  have hnames : [] ∉ user.passTable.map Prod.fst := fun hmem => nil_not_mem_keys (mem_append_right _ hmem)
  have hlower : (user.passTable.map fun e => e.1.asLower) = [lit "salt", lit "method", lit "hash"] := by
    simp only [CUser.passTable, map_cons, map_nil]
    decide
  obtain ⟨hfull, hvalues, hnone⟩ :=
    look_reread hnames (by rw [hlower]; decide) (single_passTable h) (c := .empty) rfl
  rw [hlower] at hnone
  have hsalt := hvalues (lit "Salt", [user.sPassSalt]) mem_cons_self
  have hmethod := hvalues (lit "Method", [CUser.hashName user.eHashType]) (mem_cons_of_mem _ mem_cons_self)
  have hhash := hvalues (lit "Hash", [user.sPass])
    (mem_cons_of_mem _ (mem_cons_of_mem _ mem_cons_self))
  rw [← setPass_eq h cur]
  exact readPassConfig_of_look hfull rfl hhash hmethod hsalt hnone cur

/-! ## The restart -/

theorem length_values (znc : CZNC) (user : CUser) {e : Entry} (hhost : e ≠ .allowedHost) (hreply : e ≠ .ctcpReply) :
    (nonempty (user.values znc e)).length ≤ 1 := by
  have hlen : (user.values znc e).length ≤ 1 := by
    cases e with
    | string setting =>
      cases setting
      case statusPrefix =>
        rw [CUser.values]
        split_ifs <;> simp
      all_goals exact Nat.le_refl 1
    | uint setting => exact Nat.le_refl 1
    | bool setting => exact Nat.le_refl 1
    | allowedHost => exact absurd rfl hhost
    | ctcpReply => exact absurd rfl hreply
  exact (length_filter_le _ _).trans hlen

theorem eq_reloaded {cur : CUser} (hall : ∀ e, SameAt cur (user.reloaded znc) e)
    (hname : cur.sUsername = user.sUsername) :
    { cur with sPass := user.sPass, eHashType := user.eHashType, sPassSalt := user.sPassSalt } = user.reloaded znc := by
  have hstrings : cur.strings = (user.reloaded znc).strings := funext fun setting => hall (.string setting)
  have huints : cur.uints = user.uints := funext fun setting => hall (.uint setting)
  have hbools : cur.bools = user.bools := funext fun setting => hall (.bool setting)
  have hhosts : cur.ssAllowedHosts = user.ssAllowedHosts := hall .allowedHost
  have hreplies : cur.mssCTCPReplies = user.mssCTCPReplies := hall .ctcpReply
  rw [hstrings, huints, hbools, hhosts, hreplies, hname]
  rfl

theorem parseConfig_eq (znc : CZNC) (h : WellSet user) :
    ∃ config, (znc.fresh user.sUsername).parseConfig znc (user.loaded znc) = .ok ⟨user.reloaded znc, config⟩ ∧
      config.isEmpty = true := by
  obtain ⟨hfull, hvalues, hnone⟩ := look_loaded znc h
  have hentry : ∀ r ∈ readers, ∀ e ∈ entries, e.1.asLower = r.1 → r.2 = .entry e.2 := by
    intro r hr e he hlower
    rw [← inj_on_of_nodup_map nodup_readers (readers_of_entries e he) hr hlower]
  have hone : ∀ r ∈ readers, r.2 ≠ .entry .allowedHost → r.2 ≠ .entry .ctcpReply →
      (look (user.loaded znc) r.1).length ≤ 1 := by
    intro r hr hhost hreply
    by_cases hkey : r.1 ∈ entries.map fun e => e.1.asLower
    · obtain ⟨e, he, hlower⟩ := mem_map.1 hkey
      rw [hentry r hr e he hlower] at hhost hreply
      rw [← hlower, hvalues e he]
      exact length_values znc user (fun heq => hhost (by rw [heq])) fun heq => hreply (by rw [heq])
    · rw [hnone r.1 hkey]
      exact Nat.zero_le 1
  obtain ⟨config, hfull', hsubs, hlook, hkeys⟩ := @Parsing.keys_eq znc (look (user.loaded znc)) readers nodup_readers
    ⟨znc.fresh user.sUsername, user.loaded znc⟩ hfull (fun _ _ => rfl) hone
  obtain ⟨cur, hread, hdone, hname⟩ := @read_entries _ znc h _ hvalues hnone readers nodup_readers hentry
    (znc.fresh user.sUsername) fun e _ _ => SameAt.refl _ e.2
  have hall (e : Entry) : SameAt cur (user.reloaded znc) e := by
    obtain ⟨e', he', rfl⟩ := mem_map.1 (mem_entries e)
    have hstep := hdone e' he'
    rwa [if_pos (mem_map.2 ⟨_, readers_of_entries e' he', rfl⟩)] at hstep
  have hempty (k : CString) : look config k = [] := by
    rw [hlook]
    split_ifs with hmem
    · rfl
    · refine hnone k fun hkey => hmem ?_
      obtain ⟨e, he, rfl⟩ := mem_map.1 hkey
      exact mem_map.2 ⟨_, readers_of_entries e he, rfl⟩
  have hfresh : (znc.fresh user.sUsername).sUsername = user.sUsername := by
    rw [CZNC.fresh]
    split_ifs <;> rfl
  have hfound : config.findStringEntry (lit "pass") = (none, config) := by
    rw [CConfig.findStringEntry]
    cases hfind : config.configEntries.find (lit "pass") with
    | none => rfl
    | some vsList =>
      have hvalues := hempty (lit "pass")
      rw [look, hfind, Option.getD_some] at hvalues
      exact absurd (hfind.trans (congrArg some hvalues)) (hfull' _)
  have hblock : config.findSubConfig (lit "pass") =
      ([(lit "password", addEntries removed .empty user.passConfig.configEntries.entries)],
        { config with subConfigs := .nil }) := by
    rw [CConfig.findSubConfig, hsubs]
    rfl
  refine ⟨{ config with subConfigs := .nil }, ?_, isEmpty_of_look hfull' hempty rfl⟩
  rw [CUser.parseConfig, hkeys, hread]
  have hpass : Parsing.pass ⟨cur, config⟩ = .ok ⟨user.reloaded znc, { config with subConfigs := .nil }⟩ := by
    simp only [Parsing.pass, hfound, hblock]
    have hnopass : ¬((Option.getD none [] : CString).trimSuffix_n (lit "-") ≠ [] ∧
        [(lit "password", addEntries removed .empty user.passConfig.configEntries.entries)] ≠ []) := by
      rintro ⟨hne, -⟩
      exact hne (by decide)
    rw [if_neg hnopass, readPassConfig_eq h]
    have hnone : cur.readPass (Option.getD none []) =
      { cur with sPass := [], eHashType := .HASH_NONE, sPassSalt := [] } := rfl
    rw [hnone, ← eq_reloaded hall (hname.trans hfresh)]
    rfl
  exact hpass

theorem restart_eq (haccepted : znc.Accepted) (h : WellSet user) :
    znc.restart user = .ok [user.reloaded znc] := by
  obtain ⟨config, hparse, hempty⟩ := parseConfig_eq znc h
  have hload : znc.loadUser user.sUsername (user.loaded znc) = .ok (user.reloaded znc) := by
    rw [CZNC.loadUser, newUser_eq haccepted]
    simp only [bind, Except.bind, hparse]
    rw [if_pos hempty]
    rfl
  have husers : (CConfig.empty.emplaceBack (lit "user") user.sUsername (user.loaded znc)).findSubConfig (lit "user") =
      ([(user.sUsername, user.loaded znc)], .empty) := rfl
  rw [CZNC.restart, parse_writeConfig znc h, Except.bind, CZNC.loadUsers, husers, mapM_cons, hload]
  rfl

theorem restart_refused (hrefused : ¬znc.Accepted) (h : WellSet user) :
    znc.restart user = .error (invalidStatusPrefix znc.sStatusPrefix) := by
  obtain ⟨hne, hno⟩ := not_or.1 hrefused
  have hnew : znc.newUser user.sUsername = .error (invalidStatusPrefix znc.sStatusPrefix) := by
    simp only [CZNC.newUser]
    rw [if_neg hne, CUser.setStatusPrefix, if_neg hno, if_neg Bool.false_ne_true]
  have husers : (CConfig.empty.emplaceBack (lit "user") user.sUsername (user.loaded znc)).findSubConfig (lit "user") =
      ([(user.sUsername, user.loaded znc)], .empty) := rfl
  rw [CZNC.restart, parse_writeConfig znc h, Except.bind, CZNC.loadUsers, husers, mapM_cons, CZNC.loadUser, hnew]
  rfl

theorem NameOk.clean_ne (h : NameOk s) : makeCleanUsername s ≠ [] := by
  obtain ⟨hvalid, hnul⟩ := h
  cases s with
  | nil => exact absurd hvalid (by decide)
  | cons c s =>
    have hletter : isalpha c = true := by
      rw [Login.isValidUserName, cStr_eq_self hnul] at hvalid
      exact (Bool.and_eq_true_iff.1 (Bool.and_eq_true_iff.1 hvalid).1).2
    have hne {d : UInt8} (hd : isalpha d = false) : c ≠ d := by
      rintro rfl
      rw [hletter] at hd
      cases hd
    have htoken : CString.token (c :: s) 0 false (ch '@') false = c :: s.takeWhile (· ≠ ch '@') := by
      have hdrop : (c :: s).dropWhile (· = ch '@') = c :: s :=
        dropWhile_cons_of_neg (by simpa using hne (d := ch '@') (by decide))
      rw [token, if_neg Bool.false_ne_true, hdrop]
      exact takeWhile_cons_of_pos (by simpa using hne (d := ch '@') (by decide))
    rw [makeCleanUsername, htoken, remove_n, cStr, takeWhile_cons_of_pos (by simpa using hne (d := 0) (by decide)),
      filter_cons_of_pos (by simpa using hne (d := ch '.') (by decide))]
    exact cons_ne_nil _ _

/-- when a string comes back -/
def StringKept (znc : CZNC) (user : CUser) (bAllowDefault : Bool) (setting : StringSetting) : Prop :=
  match setting with
  | .nick | .altNick | .ident => bAllowDefault = false → user.strings setting ≠ []
  | .timestampFormat => user.strings .timestampFormat ≠ []
  | .clientEncoding =>
    user.strings .clientEncoding = [] ∨ NetworkClone.EncodingKept znc.toEnv (user.strings .clientEncoding)
  | _ => True

theorem getString_reloaded (znc : CZNC) (h : WellSet user) (bAllowDefault : Bool) (setting : StringSetting) :
    (user.reloaded znc).getString bAllowDefault setting = user.getString bAllowDefault setting ↔
      StringKept znc user bAllowDefault setting := by
  have hclean := h.name.clean_ne
  -- the name of the user is written instead of nothing
  have hname (s : CString) :
      (if bAllowDefault && (if true && s = [] then makeCleanUsername user.sUsername else s) = [] then
          makeCleanUsername user.sUsername
        else if true && s = [] then makeCleanUsername user.sUsername else s) =
        (if bAllowDefault && s = [] then makeCleanUsername user.sUsername else s) ↔
          (bAllowDefault = false → s ≠ []) := by
    by_cases hs : s = []
    · cases bAllowDefault <;> simp [hs, hclean]
    · simp [hs]
  -- so is the default, which is no blank text
  have hdefault (s sDefault : CString) (hne : trim sDefault ≠ []) :
      (if trim (if trim s ≠ [] then s else sDefault) ≠ [] then if trim s ≠ [] then s else sDefault else sDefault) =
        if trim s ≠ [] then s else sDefault := by
    split_ifs <;> rfl
  cases setting
  case nick => exact hname _
  case altNick => exact hname _
  case ident => exact hname _
  case realName => exact iff_of_true (hdefault _ _ (by decide)) trivial
  case quitMsg => exact iff_of_true (hdefault _ _ (by decide)) trivial
  case timestampFormat =>
    have hformat : (user.reloaded znc).getString bAllowDefault .timestampFormat =
        if user.strings .timestampFormat = [] then lit "[%H:%M:%S]" else user.strings .timestampFormat := rfl
    have huser : user.getString bAllowDefault .timestampFormat = user.strings .timestampFormat := rfl
    rw [hformat, huser, StringKept]
    split_ifs with hnil
    · rw [hnil]
      exact iff_of_false (cons_ne_nil _ _) (not_not.2 rfl)
    · exact iff_of_true rfl hnil
  case clientEncoding =>
    have hencoding : (user.reloaded znc).getString bAllowDefault .clientEncoding =
        if user.strings .clientEncoding = [] then [] else znc.toEnv.fixupEncoding (user.strings .clientEncoding) := rfl
    have huser : user.getString bAllowDefault .clientEncoding = user.strings .clientEncoding := rfl
    rw [hencoding, huser, StringKept, ← NetworkClone.fixupEncoding_eq_iff]
    split_ifs with hnil
    · exact iff_of_true hnil.symm (.inl hnil)
    · exact ⟨.inr, fun hor => hor.resolve_left hnil⟩
  all_goals exact iff_of_true rfl trivial

/-- **Exactly when the values come back:** the status prefix for all users is accepted, the format of the time stamps is not
empty, and the encoding is not one that is being replaced; and the getters that do not fall back on the name of the user see a
nick, an alternative nick and an ident. -/
theorem restart_iff (znc : CZNC) {sUsername : CString} (hname : NameOk sUsername) {calls : List Call}
    (hcalls : ∀ call ∈ calls, call.Plain) (bAllowDefault : Bool) :
    ((CUser.new sUsername).run calls).Kept znc bAllowDefault ↔
      Lasting znc ((CUser.new sUsername).run calls) bAllowDefault := by
  have h := (WellSet.new hname).run hcalls
  set user := (CUser.new sUsername).run calls
  by_cases haccepted : znc.Accepted
  · have hgetters : user.Kept znc bAllowDefault ↔
        (user.reloaded znc).getString bAllowDefault = user.getString bAllowDefault := by
      rw [CUser.Kept, restart_eq haccepted h]
      constructor
      · rintro ⟨user', hrestart, hsame⟩
        obtain rfl : user.reloaded znc = user' := (List.cons.inj (Except.ok.inj hrestart)).1
        exact congrArg Getters.strings hsame
      · intro hsame
        refine ⟨user.reloaded znc, rfl, ?_⟩
        rw [CUser.getters, hsame]
        rfl
    have hstrings : (user.reloaded znc).getString bAllowDefault = user.getString bAllowDefault ↔
        ∀ setting, StringKept znc user bAllowDefault setting := by
      rw [funext_iff]
      exact forall_congr' (getString_reloaded znc h bAllowDefault)
    rw [hgetters, hstrings]
    constructor
    · intro hkept
      refine ⟨haccepted, hkept .timestampFormat, hkept .clientEncoding, fun hno setting hsetting => ?_⟩
      simp only [mem_cons, not_mem_nil, or_false] at hsetting
      rcases hsetting with rfl | rfl | rfl
      · exact hkept .nick hno
      · exact hkept .altNick hno
      · exact hkept .ident hno
    · intro hlasting setting
      cases setting
      case nick => exact fun hno => hlasting.names hno .nick (by simp)
      case altNick => exact fun hno => hlasting.names hno .altNick (by simp)
      case ident => exact fun hno => hlasting.names hno .ident (by simp)
      case timestampFormat => exact hlasting.timestampFormat
      case clientEncoding => exact hlasting.encoding
      all_goals exact trivial
  · refine iff_of_false ?_ fun hlasting => haccepted hlasting.accepted
    rintro ⟨user', hrestart, -⟩
    rw [restart_refused haccepted h] at hrestart
    cases hrestart

/-- no status prefix for all users, and no encoding is forced -/
def sampleZNC : CZNC := ⟨⟨false, fun _ => true, fun _ => [], fun _ sArgs => some sArgs, fun _ => true⟩, [], 500⟩

/-- all that a user wants to have set, with a format of the time stamps -/
def sampleCalls (sFormat : CString) : List Call :=
  [.string sampleZNC .altNick (lit "bob_"), .string sampleZNC .timestampFormat sFormat,
    .string sampleZNC .language (lit "de_DE"),
    .string sampleZNC .realName [], .uint sampleZNC .chanBufferSize 200 false,
    .uint sampleZNC .queryBufferSize 900 false,
    .bool .admin true, .pass (lit "0123abcd") .HASH_SHA256 (lit "salt"), .addAllowedHost (lit "127.0.0.*"),
    .addCTCPReply (lit "version") (lit "none of your business"), .addCTCPReply (lit "time") []]

theorem plain_sampleCalls {sFormat : CString} (hformat : Plain sFormat) : ∀ call ∈ sampleCalls sFormat, call.Plain := by
  have hbob : Plain (lit "bob_") := by decide
  have hlanguage : Plain (lit "de_DE") := by decide
  have hpass : Plain (lit "0123abcd") ∧ Plain (lit "salt") := by decide
  have hhost : Plain (lit "127.0.0.*") := by decide
  have hversion : Plain (lit "version") ∧ Plain (lit "none of your business") := by decide
  have htime : Plain (lit "time") := by decide
  simp only [sampleCalls, forall_mem_cons]
  exact ⟨hbob, hformat, hlanguage, plain_nil, trivial, trivial, trivial, hpass, hhost, hversion, ⟨htime, plain_nil⟩,
    fun _ h => nomatch h⟩

theorem name_bob : NameOk (lit "bob") := ⟨by decide, by decide⟩

theorem restart_sample : ((CUser.new (lit "bob")).run (sampleCalls (lit "[%H:%M]"))).Kept sampleZNC false := by
  refine (restart_iff sampleZNC name_bob (plain_sampleCalls (by decide)) false).2 ⟨.inl rfl, ?_, .inl ?_, ?_⟩
  · decide
  · decide
  · intro _
    decide

/-- **A format that is empty** comes back as that of a new user. -/
theorem restart_format : (∀ call ∈ sampleCalls [], call.Plain) ∧
    ¬((CUser.new (lit "bob")).run (sampleCalls [])).Kept sampleZNC true := by
  refine ⟨plain_sampleCalls plain_nil, ?_⟩
  rintro ⟨user', hrestart, hsame⟩
  have h := (WellSet.new name_bob).run (plain_sampleCalls plain_nil)
  rw [restart_eq (.inl rfl) h] at hrestart
  obtain rfl := (List.cons.inj (Except.ok.inj hrestart)).1
  have hformat := congrFun (congrArg Getters.strings hsame) .timestampFormat
  exact (getString_reloaded sampleZNC h true .timestampFormat).1 hformat (by decide)

end ZNC.UserConfig
