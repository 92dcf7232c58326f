/-
The permissions of the nicks on a channel, as NAMES, MODE, NICK, JOIN and PART make them.

ZNC reads the permissions out of the characters in front of the entries of NAMES and out of the permission modes, and takes them
along when a nick is renamed.

Abstract: `Granted` is what the server has granted to whom; `granted` follows the lines without the table of the channel.
Model: `ChanLine` is a line about the channel, and `ChanLine.op` what ZNC does on it.

Results:
- `exec_permsOk`: no permission character twice, and only such that PREFIX has, whatever is done to the table;
- `perms_mirror`: both for every run; an entry of NAMES adds to what its nick has.
- `perms_not_renewed`: it does not replace it.
-/
import ZNC.ChanNicks

namespace ZNC.Chan

open CString Words List Option Chan.CChan ServerTables

/-! ## What the server grants -/

/-- the nicks on a channel, each with its permissions -/
abbrev Granted := CString → Option (Set UInt8)

namespace Granted

def nobody : Granted := fun _ => none

/-- `sNick` is on the channel with the permissions `perms` -/
def enter (g : Granted) (sNick : CString) (perms : Set UInt8) : Granted :=
  fun k => if k = sNick then some perms else g k

/-- the permissions of `sNick`, none if it is not on the channel -/
def of (g : Granted) (sNick : CString) : Set UInt8 := (g sNick).getD ∅

def leave (g : Granted) (sNick : CString) : Granted := fun k => if k = sNick then none else g k

def rename (g : Granted) (sOldNick sNewNick : CString) : Granted :=
  match g sOldNick with
  | none => g
  | some perms => fun k => if k = sNewNick then some perms else if k = sOldNick then none else g k

/-- a permission given to or taken from `sNick`, if it is on the channel -/
def change (g : Granted) (bAdd : Bool) (cPerm : UInt8) (sNick : CString) : Granted := fun k =>
  if k = sNick then (g k).map fun perms => if bAdd then insert cPerm perms else perms \ {cPerm} else g k

end Granted

/-- the permission that PREFIX gives the letter for -/
def permOf (t : ServerTables) (cMode : UInt8) : Option UInt8 :=
  if cMode = 0 then none else ((t.sPermModes.zip t.sPerms).lookup cMode).filter (· ≠ 0)

/-- the letters of a mode word, each with its sign -/
def signed : Bool → CString → List (Bool × UInt8)
  | _, [] => []
  | bAdd, cMode :: sModes =>
    if cMode = ch '+' then signed true sModes
    else if cMode = ch '-' then signed false sModes
    else (bAdd, cMode) :: signed bAdd sModes

/-- the permissions that the letters give and take, each with its nick: letters that have an argument take the next one -/
def permChanges (t : ServerTables) : List (Bool × UInt8) → VCString → List (Bool × UInt8 × CString)
  | [], _ => []
  | (bAdd, cMode) :: letters, vsModes =>
    if takesArg t bAdd cMode then
      ((permOf t cMode).toList.map fun cPerm => (bAdd, cPerm, vsModes.headD [])) ++ permChanges t letters vsModes.tail
    else permChanges t letters vsModes

/-! ## Lines -/

/-- an entry of NAMES: the nick, with its user and host or without, and the characters in front of it -/
structure NamesEntry where
  sPrefix : CString
  nick : ZNC.CNick

inductive ChanLine where
  | names (entries : List NamesEntry)
  | mode (sModes : CString) (vsModes : VCString)
  | nick (sOldNick sNewNick : CString)
  | join (nick : ZNC.CNick)
  | part (sNick : CString)

def NamesEntry.text (e : NamesEntry) : CString := e.sPrefix ++ e.nick.getNickMask

/-- what ZNC does on the line -/
def ChanLine.op : ChanLine → NickOp
  | .names entries => .addNicks ((lit " ").join (entries.map NamesEntry.text))
  | .mode sModes vsModes => .modeChange sModes vsModes
  | .nick sOldNick sNewNick => .changeNick sOldNick sNewNick
  | .join n => .addNick n.getNickMask
  | .part sNick => .remNick sNick

/-- what the line grants; `entry` is what an entry of NAMES makes of the permissions its nick had -/
def ChanLine.grant (entry : Set UInt8 → Set UInt8 → Set UInt8) (t : ServerTables) (g : Granted) : ChanLine → Granted
  | .names entries => entries.foldl (fun g e => g.enter e.nick.sNick (entry (g.of e.nick.sNick) {c | c ∈ e.sPrefix})) g
  | .mode sModes vsModes =>
    (permChanges t (signed true sModes) vsModes).foldl (fun g change => g.change change.1 change.2.1 change.2.2) g
  | .nick sOldNick sNewNick => g.rename sOldNick sNewNick
  | .join n => g.enter n.sNick (g.of n.sNick)
  | .part sNick => g.leave sNick

/-- an entry adds to what its nick has -/
def granted (t : ServerTables) (lines : List ChanLine) : Granted := lines.foldl (ChanLine.grant (· ∪ ·) t) .nobody

/-- an entry replaces what its nick has -/
def grantedAnew (t : ServerTables) (lines : List ChanLine) : Granted :=
  lines.foldl (ChanLine.grant (fun _ perms => perms) t) .nobody

/-- a nick that a server shows, with both user and host or without -/
structure NickShown (t : ServerTables) (nick : ZNC.CNick) : Prop where
  complete : nick.Complete
  noSpace : ch ' ' ∉ nick.getNickMask
  noNul : 0 ∉ nick.getNickMask
  noColon : nick.sNick.head? ≠ some (ch ':')
  noPerm : ∀ c ∈ nick.sNick.head?, t.isPermChar c = false

/-- an entry that a server sends: characters of PREFIX and a nick, without a space -/
structure NamesEntry.Sent (t : ServerTables) (e : NamesEntry) : Prop where
  nick : NickShown t e.nick
  perms : ∀ c ∈ e.sPrefix, t.isPermChar c = true
  noSpace : ch ' ' ∉ e.sPrefix

/-- a line that a server sends -/
def ChanLine.Sent (t : ServerTables) : ChanLine → Prop
  | .names entries => ∀ e ∈ entries, e.Sent t
  | .nick sOldNick sNewNick => sOldNick ≠ sNewNick
  | .join n => NickShown t n
  | _ => True

/-- a channel that ZNC is on after some lines, each with ZNC's nick of that time -/
def runLines (t : ServerTables) (lines : List (CString × ChanLine)) : CChan :=
  run (CChan.new.setIsOn true) (lines.map fun l => ⟨t, l.1, l.2.op⟩)

/-! ## No permission twice, and only those of PREFIX -/

/-- the permissions that are recorded for a nick -/
def CNick.perms (n : CNick) : Set UInt8 := {c | c ∈ n.sChanPerms}

/-- no permission stands twice, and each is one of PREFIX -/
def CNick.PermsOk (t : ServerTables) (n : CNick) : Prop := n.sChanPerms.Nodup ∧ ∀ c ∈ n.sChanPerms, c ∈ t.sPerms

def PermsOk (t : ServerTables) (c : CChan) : Prop := ∀ sNick n, c.findNick sNick = some n → n.PermsOk t

namespace CNick

variable {t : ServerTables} {n : CNick}

theorem permsOk_nil (h : n.sChanPerms = []) : n.PermsOk t := by
  rw [PermsOk, h]
  exact ⟨nodup_nil, fun c hc => nomatch hc⟩

theorem PermsOk.addPerm (h : n.PermsOk t) {cPerm : UInt8} (hperm : cPerm ∈ t.sPerms) :
    (n.addPerm cPerm).PermsOk t := by
  rw [addPerm_eq, PermsOk, permsAdd]
  dsimp only
  split_ifs with hno
  · exact h
  · refine ⟨nodup_append.2 ⟨h.1, nodup_singleton _, fun a ha b hb hab => ?_⟩, fun c hc => ?_⟩
    · apply hno
      right
      rw [mem_singleton.1 hb] at hab
      rw [← hab]
      exact ha
    · rcases mem_append.1 hc with hc | hc
      · exact h.2 c hc
      · rw [mem_singleton.1 hc]
        exact hperm

theorem PermsOk.remPerm (h : n.PermsOk t) (cPerm : UInt8) :
    (n.remPerm cPerm).PermsOk t :=
  ⟨h.1.erase cPerm, fun c hc => h.2 c (mem_of_mem_erase hc)⟩

theorem PermsOk.foldl_addPerm {t : ServerTables} {n : CNick} (h : n.PermsOk t) {sPrefix : CString}
    (hperms : ∀ c ∈ sPrefix, c ∈ t.sPerms) : (sPrefix.foldl CNick.addPerm n).PermsOk t := by
  induction sPrefix generalizing n with
  | nil => exact h
  | cons cPerm sPrefix ih =>
    apply ih (h.addPerm (hperms cPerm mem_cons_self))
    exact fun c hc => hperms c (mem_cons_of_mem _ hc)

theorem PermsOk.congr {n' : CNick} (h : n.PermsOk t) (heq : n'.sChanPerms = n.sChanPerms) :
    n'.PermsOk t := by
  rw [PermsOk, heq]
  exact h

end CNick

variable {t : ServerTables} {c : CChan} {nick : ZNC.CNick} {g : Granted} {sPrefix : CString}

theorem PermsOk.congr {c' : CChan} (h : PermsOk t c) (hnicks : c'.msNicks = c.msNicks) :
    PermsOk t c' := by
  intro sNick n hn
  rw [findNick, hnicks] at hn
  exact h sNick n hn

theorem PermsOk.insert (h : PermsOk t c) (sNick : CString) {n : CNick} (hn : n.PermsOk t) {c' : CChan}
    (hnicks : c'.msNicks = c.msNicks.insert sNick n) : PermsOk t c' := by
  intro k n' hn'
  rw [findNick, hnicks, OrdMap.find_insert] at hn'
  split_ifs at hn'
  · rw [← some_inj.1 hn']
    exact hn
  · exact h k n' hn'

theorem entryPrefix_perms {sNick : CString} {c : UInt8} (h : c ∈ entryPrefix t sNick) :
    t.isPermChar c = true := mem_takeWhile_imp h

theorem isPermChar_mem {c : UInt8} (h : t.isPermChar c = true) : c ≠ 0 ∧ c ∈ t.sPerms := by
  simpa [isPermChar] using h

theorem entered_permsOk (h : PermsOk t c) (sNick : CString) :
    (c.entered t sNick).PermsOk t := by
  unfold entered
  apply CNick.PermsOk.foldl_addPerm
  · have hfrom : (c.entryFrom (entryNick t sNick)).PermsOk t := by
      unfold entryFrom
      cases hn : c.findNick (entryNick t sNick) with
      | none => exact CNick.permsOk_nil rfl
      | some n => exact h _ n hn
    exact hfrom.congr rfl
  · intro p hp
    exact (isPermChar_mem (entryPrefix_perms hp)).2

theorem addNick_permsOk (hkeyed : Keyed c) (h : PermsOk t c) (sCurNick sNick : CString) :
    PermsOk t (c.addNick t sCurNick sNick).1 := by
  by_cases hnothing : entryPrefix t sNick ≠ [] ∧ entryMask t sNick = []
  · rw [addNick, if_pos hnothing]
    exact h
  · intro k n hn
    rw [addNick_find hkeyed hnothing] at hn
    split_ifs at hn
    · rw [← some_inj.1 hn]
      exact entered_permsOk h sNick
    · exact h k n hn

theorem addNicks_permsOk (hkeyed : Keyed c) (h : PermsOk t c) (sCurNick sNicks : CString) :
    PermsOk t (c.addNicks t sCurNick sNicks) := by
  unfold addNicks
  induction sNicks.split (ch ' ') false generalizing c with
  | nil => exact h
  | cons sNick vsNicks ih => exact ih (addNick_keyed hkeyed t sCurNick sNick) (addNick_permsOk hkeyed h sCurNick sNick)

theorem translate_mem {vs ws : CString} {c : UInt8} (h : translate vs ws c ≠ 0) :
    translate vs ws c ∈ ws := by
  induction vs generalizing ws with
  | nil => exact absurd rfl h
  | cons v vs ih =>
    cases ws with
    | nil => exact absurd rfl h
    | cons w ws =>
      rw [ServerTables.translate] at h ⊢
      split_ifs at h ⊢ with hv
      · exact mem_cons_self
      · exact mem_cons_of_mem _ (ih h)

theorem getPermFromMode_mem {cMode : UInt8} (h : t.getPermFromMode cMode ≠ 0) :
    t.getPermFromMode cMode ∈ t.sPerms := by
  unfold getPermFromMode at h ⊢
  split_ifs at h ⊢
  · exact translate_mem h
  · exact absurd rfl h

theorem permMode_permsOk {t : ServerTables} {c : CChan} (h : PermsOk t c) (sCurNick : CString)
    (bAdd : Bool) (cMode : UInt8)
    (sArg : CString) : PermsOk t (c.permMode t sCurNick bAdd cMode sArg) := by
  cases hfind : c.findNick sArg with
  | none =>
    rw [permMode_eq_self (.inl hfind)]
    exact h
  | some n =>
    by_cases hperm : t.getPermFromMode cMode = 0
    · rw [permMode_eq_self (.inr hperm)]
      exact h
    · rw [permMode_eq hfind hperm]
      have hn := h sArg n hfind
      have hn' : (if bAdd then n.addPerm (t.getPermFromMode cMode) else n.remPerm (t.getPermFromMode cMode)).PermsOk t := by
        split_ifs
        · exact hn.addPerm (getPermFromMode_mem hperm)
        · exact hn.remPerm _
      exact h.insert sArg hn' rfl

theorem exec_permsOk (hkeyed : Keyed c) (h : PermsOk t c) (sCurNick : CString) (op : NickOp) :
    PermsOk t (op.exec t sCurNick c) := by
  cases op with
  | addNick sNick => exact addNick_permsOk hkeyed h sCurNick sNick
  | addNicks sNicks => exact addNicks_permsOk hkeyed h sCurNick sNicks
  | remNick sNick =>
    intro k n hn
    rw [NickOp.exec, remNick, findNick, OrdMap.find_erase] at hn
    split_ifs at hn
    exact h k n hn
  | modeChange sModes vsModes =>
    apply modeLoop_inv
    · intro c bAdd cMode sArg hc
      exact permMode_permsOk hc sCurNick bAdd cMode sArg
    · intro c bAdd cMode sArg hc
      exact hc.congr (chanMode_frame t c bAdd cMode sArg).1
    · exact h
  | changeNick sOldNick sNewNick =>
    cases hfind : c.findNick sOldNick with
    | none =>
      rw [NickOp.exec, changeNick, hfind]
      exact h
    | some n =>
      intro k n' hn'
      rw [NickOp.exec, changeNick_find hfind] at hn'
      split_ifs at hn'
      · rw [← some_inj.1 hn']
        exact (h sOldNick n hfind).congr rfl
      · exact h k n' hn'

/-! ## The table and the grants -/

/-- the table has the nicks of `g`, each with its permissions -/
def Agrees (c : CChan) (g : Granted) : Prop := ∀ sNick, (c.findNick sNick).map CNick.perms = g sNick

theorem Agrees.congr {c' : CChan} (h : Agrees c g) (hnicks : c'.msNicks = c.msNicks) : Agrees c' g := by
  intro sNick
  rw [findNick, hnicks]
  exact h sNick

theorem perms_addPerm (n : CNick) {cPerm : UInt8} (h0 : cPerm ≠ 0) :
    (n.addPerm cPerm).perms = insert cPerm n.perms := by
  rw [addPerm_eq, CNick.perms, CNick.perms, permsAdd]
  ext c
  dsimp only
  split_ifs with hno
  · have hmem : cPerm ∈ n.sChanPerms := hno.resolve_left h0
    constructor
    · intro hc
      exact .inr hc
    · intro hc
      rcases hc with hc | hc
      · rw [hc]
        exact hmem
      · exact hc
  · rw [Set.mem_ofPred_eq, mem_append, mem_singleton, or_comm]
    rfl

theorem perms_foldl_addPerm (n : CNick) (h0 : ∀ c ∈ sPrefix, c ≠ 0) :
    (sPrefix.foldl CNick.addPerm n).perms = n.perms ∪ {c | c ∈ sPrefix} := by
  induction sPrefix generalizing n with
  | nil =>
    have hnone : {c : UInt8 | c ∈ ([] : CString)} = ∅ := by simp
    rw [hnone, Set.union_empty]
    rfl
  | cons cPerm sPrefix ih =>
    rw [foldl_cons, ih _ fun c hc => h0 c (mem_cons_of_mem _ hc), perms_addPerm _ (h0 cPerm mem_cons_self)]
    ext c
    simp only [Set.mem_union, Set.mem_insert_iff, Set.mem_ofPred_eq, mem_cons]
    tauto

theorem perms_remPerm {n : CNick} (h : n.PermsOk t) (cPerm : UInt8) :
    (n.remPerm cPerm).perms = n.perms \ {cPerm} := by
  ext c
  rw [CNick.perms, CNick.remPerm, Set.mem_ofPred_eq, h.1.mem_erase_iff, and_comm]
  rfl

/-! ## The mode line -/

theorem lookup_zip (vs ws : CString) (c : UInt8) : ((vs.zip ws).lookup c).getD 0 = translate vs ws c := by
  induction vs generalizing ws with
  | nil => rfl
  | cons v vs ih =>
    cases ws with
    | nil => rfl
    | cons w ws =>
      rw [zip_cons_cons, lookup_cons, ServerTables.translate]
      by_cases hv : v = c
      · rw [if_pos hv, beq_iff_eq.2 hv.symm]
        rfl
      · rw [if_neg hv, beq_eq_false_iff_ne.2 (Ne.symm hv)]
        exact ih ws

theorem permOf_eq (hlen : t.sPermModes.length = t.sPerms.length) {cMode : UInt8} (h0 : cMode ≠ 0) :
    permOf t cMode = if t.getPermFromMode cMode = 0 then none else some (t.getPermFromMode cMode) := by
  rw [permOf, if_neg h0, getPermFromMode, if_pos hlen, ← lookup_zip]
  cases (t.sPermModes.zip t.sPerms).lookup cMode with
  | none => rfl
  | some cPerm => by_cases hp : cPerm = 0 <;> simp [Option.filter, hp]

theorem permOf_of_not_permMode {cMode : UInt8} (h : t.isPermMode cMode ≠ true) :
    permOf t cMode = none := by
  by_cases h0 : cMode = 0
  · rw [permOf, if_pos h0]
  · have hnot : cMode ∉ t.sPermModes := by simpa [isPermMode, h0] using h
    have hlookup : (t.sPermModes.zip t.sPerms).lookup cMode = none := by
      rw [lookup_eq_none_iff]
      intro p hp
      rw [bne_iff_ne]
      intro heq
      rw [heq] at hnot
      exact hnot (of_mem_zip hp).1
    rw [permOf, if_neg h0, hlookup]
    rfl

theorem permMode_agrees (hok : PermsOk t c) (h : Agrees c g) (sCurNick : CString) (bAdd : Bool) (cMode : UInt8)
    (sArg : CString) :
    Agrees (c.permMode t sCurNick bAdd cMode sArg)
      (if t.getPermFromMode cMode = 0 then g else g.change bAdd (t.getPermFromMode cMode) sArg) := by
  by_cases hperm : t.getPermFromMode cMode = 0
  · rw [if_pos hperm, permMode_eq_self (.inr hperm)]
    exact h
  rw [if_neg hperm]
  cases hfind : c.findNick sArg with
  | none =>
    rw [permMode_eq_self (.inl hfind)]
    intro k
    by_cases hk : k = sArg
    · have hg : g sArg = none := by rw [← h sArg, hfind, map_none]
      rw [Granted.change, if_pos hk, hk, hfind, hg]
      rfl
    · rw [Granted.change, if_neg hk]
      exact h k
  | some n =>
    rw [permMode_eq hfind hperm]
    intro k
    rw [findNick, OrdMap.find_insert]
    by_cases hk : k = sArg
    · have hg : g k = some n.perms := by rw [← h k, hk, hfind, map_some]
      rw [Granted.change, if_pos hk, if_pos hk, hg]
      cases bAdd with
      | true => exact congrArg some (perms_addPerm n hperm)
      | false => exact congrArg some (perms_remPerm (hok sArg n hfind) _)
    · rw [Granted.change, if_neg hk, if_neg hk]
      exact h k

theorem modeLoop_changes_inv {P : CChan → Prop} (hlen : t.sPermModes.length = t.sPerms.length) {sCurNick : CString}
    {changes : List (Bool × UInt8 × CString)} (hperm : ∀ c bAdd cMode sArg, P c →
      (t.getPermFromMode cMode ≠ 0 → (bAdd, t.getPermFromMode cMode, sArg) ∈ changes) →
        P (c.permMode t sCurNick bAdd cMode sArg)) (hchan : ∀ c bAdd cMode sArg, P c → P (c.chanMode t bAdd cMode sArg))
    (h : P c) (bAdd : Bool) (vsModes : VCString) (sModes : CString)
    (hsub : permChanges t (signed bAdd sModes) vsModes ⊆ changes) :
    P (modeLoop t sCurNick c bAdd vsModes sModes) := by
  induction sModes generalizing c bAdd vsModes with
  | nil => exact h
  | cons cMode sModes ih =>
    rw [signed] at hsub
    rw [modeLoop]
    by_cases hplus : cMode = ch '+'
    · rw [if_pos hplus] at hsub ⊢
      exact ih h true vsModes hsub
    by_cases hminus : cMode = ch '-'
    · rw [if_neg hplus, if_pos hminus] at hsub ⊢
      exact ih h false vsModes hsub
    rw [if_neg hplus, if_neg hminus] at hsub ⊢
    rw [permChanges] at hsub
    by_cases hmode : t.isPermMode cMode = true
    · have htakes : takesArg t bAdd cMode = true := by rw [takesArg, hmode, Bool.true_or]
      have h0 : cMode ≠ 0 := by
        have hboth : cMode ≠ 0 ∧ cMode ∈ t.sPermModes := by simpa [isPermMode] using hmode
        exact hboth.1
      simp only [if_pos htakes, if_pos hmode] at hsub ⊢
      obtain ⟨hfirst, hrest⟩ := append_subset.1 hsub
      apply ih _ bAdd vsModes.tail hrest
      apply hperm c bAdd cMode _ h
      intro hp
      apply hfirst
      rw [permOf_eq hlen h0, if_neg hp]
      exact mem_singleton_self _
    · simp only [if_neg hmode]
      by_cases htakes : takesArg t bAdd cMode = true
      · simp only [if_pos htakes] at hsub ⊢
        exact ih (hchan _ _ _ _ h) bAdd _ (append_subset.1 hsub).2
      · simp only [if_neg htakes] at hsub ⊢
        exact ih (hchan _ _ _ _ h) bAdd _ hsub

/-- **A mode line** does to the table what it does to the grants. -/
theorem modeLoop_agrees (hlen : t.sPermModes.length = t.sPerms.length) (sCurNick : CString) (hok : PermsOk t c)
    (h : Agrees c g) (bAdd : Bool) (vsModes : VCString) (sModes : CString) :
    Agrees (modeLoop t sCurNick c bAdd vsModes sModes)
      ((permChanges t (signed bAdd sModes) vsModes).foldl (fun g change =>
        g.change change.1 change.2.1 change.2.2) g) := by
  induction sModes generalizing c g bAdd vsModes with
  | nil => exact h
  | cons cMode sModes ih =>
    rw [modeLoop, signed]
    by_cases hplus : cMode = ch '+'
    · rw [if_pos hplus, if_pos hplus]
      exact ih hok h true vsModes
    by_cases hminus : cMode = ch '-'
    · rw [if_neg hplus, if_neg hplus, if_pos hminus, if_pos hminus]
      exact ih hok h false vsModes
    rw [if_neg hplus, if_neg hplus, if_neg hminus, if_neg hminus, permChanges]
    by_cases hmode : t.isPermMode cMode = true
    · -- a permission mode has an argument
      have htakes : takesArg t bAdd cMode = true := by rw [takesArg, hmode, Bool.true_or]
      have h0 : cMode ≠ 0 := by
        have hboth : cMode ≠ 0 ∧ cMode ∈ t.sPermModes := by simpa [isPermMode] using hmode
        exact hboth.1
      have hone := permMode_agrees hok h sCurNick bAdd cMode (vsModes.headD [])
      have hok' := permMode_permsOk hok sCurNick bAdd cMode (vsModes.headD [])
      have hrest := ih hok' hone bAdd vsModes.tail
      simp only [if_pos htakes, if_pos hmode, foldl_append, permOf_eq hlen h0]
      by_cases hperm : t.getPermFromMode cMode = 0
      · rw [if_pos hperm] at hrest ⊢
        exact hrest
      · rw [if_neg hperm] at hrest ⊢
        exact hrest
    · have hframe := (chanMode_frame t c bAdd cMode (if takesArg t bAdd cMode then vsModes.headD [] else [])).1
      have hrest := ih (hok.congr hframe) (h.congr hframe) bAdd
      simp only [if_neg hmode, permOf_of_not_permMode hmode]
      by_cases htakes : takesArg t bAdd cMode = true
      · simp only [if_pos htakes] at hrest ⊢
        exact hrest _
      · simp only [if_neg htakes] at hrest ⊢
        exact hrest _

/-! ## Entries of NAMES -/

theorem NickShown.mask_eq (h : NickShown t nick) :
    nick.getNickMask = nick.sNick ∨ ∃ r, nick.getNickMask = nick.sNick ++ ch '!' :: r := by
  unfold CNick.getNickMask
  rcases h.complete.both with ⟨-, hhost⟩ | ⟨hident, hhost, -⟩
  · left
    rw [if_pos hhost, append_nil]
  · right
    rw [if_neg hhost, if_neg hident]
    exact ⟨_, rfl⟩

theorem entry_read (h : NickShown t nick) (hpre : ∀ c ∈ sPrefix, t.isPermChar c = true) :
    entryPrefix t (sPrefix ++ nick.getNickMask) = sPrefix ∧
      entryMask t (sPrefix ++ nick.getNickMask) = nick.getNickMask ∧
      entryNick t (sPrefix ++ nick.getNickMask) = nick.sNick := by
  have hnul : (0 : UInt8) ∉ sPrefix ++ nick.getNickMask := by
    rw [mem_append, not_or]
    exact ⟨fun h0 => (isPermChar_mem (hpre 0 h0)).1 rfl, h.noNul⟩
  have hhead : ∀ c ∈ nick.getNickMask.head?, t.isPermChar c = false := by
    intro c hc
    apply h.noPerm c
    rcases h.mask_eq with heq | ⟨r, heq⟩
    · rw [← heq]
      exact hc
    · rw [heq, head?_append_of_ne_nil _ h.complete.nick] at hc
      exact hc
  have hstop : nick.getNickMask.takeWhile t.isPermChar = [] ∧
      nick.getNickMask.dropWhile t.isPermChar = nick.getNickMask := by
    cases hm : nick.getNickMask with
    | nil => exact ⟨rfl, rfl⟩
    | cons c s =>
      rw [hm] at hhead
      have hc := hhead c rfl
      exact ⟨takeWhile_cons_of_neg (by simp [hc]), dropWhile_cons_of_neg (by simp [hc])⟩
  have hmask : entryMask t (sPrefix ++ nick.getNickMask) = nick.getNickMask := by
    rw [entryMask, cStr_eq_self hnul, dropWhile_append_of_pos hpre, hstop.2]
  refine ⟨?_, hmask, ?_⟩
  · rw [entryPrefix, cStr_eq_self hnul, takeWhile_append_of_pos hpre, hstop.1, append_nil]
  · rw [entryNick, hmask]
    rcases h.mask_eq with heq | ⟨r, heq⟩
    · rw [heq, token_zero_of_not_mem h.complete.noBang]
    · rw [heq, token_zero_append h.complete.nick h.complete.noBang]

theorem ofMask_sNick (h : NickShown t nick) :
    (CNick.ofMask nick.sNick).sNick = nick.sNick := by
  rw [CNick.ofMask, ZNC.CNick.parse_nick _ h.complete.nick h.complete.noBang]
  exact ZNC.CNick.chompColon_eq_self h.noColon

theorem entered_entry (hkeyed : Keyed c) (h : NickShown t nick) (hpre : ∀ c ∈ sPrefix, t.isPermChar c = true) :
    (c.entered t (sPrefix ++ nick.getNickMask)).sNick = nick.sNick ∧
      (c.entered t (sPrefix ++ nick.getNickMask)).bNetwork = (c.entryFrom nick.sNick).bNetwork ∧
      (c.entered t (sPrefix ++ nick.getNickMask)).sChanPerms =
        sPrefix.foldl permsAdd (((c.findNick nick.sNick).map CNick.sChanPerms).getD []) := by
  obtain ⟨hread, -, hnick⟩ := entry_read h hpre
  obtain ⟨hname, hnetwork, hperms⟩ := entered_spec t c (sPrefix ++ nick.getNickMask)
  rw [hnick] at hname hnetwork hperms
  rw [hread] at hperms
  rw [hname, hnetwork, hperms]
  unfold entryFrom
  cases hn : c.findNick nick.sNick with
  | none => exact ⟨ofMask_sNick h, rfl, rfl⟩
  | some n => exact ⟨hkeyed _ n hn, rfl, rfl⟩

theorem entry_some (h : NickShown t nick) (hpre : ∀ c ∈ sPrefix, t.isPermChar c = true) :
    ¬(entryPrefix t (sPrefix ++ nick.getNickMask) ≠ [] ∧
      entryMask t (sPrefix ++ nick.getNickMask) = []) := by
  rw [(entry_read h hpre).2.1]
  intro hnothing
  have hne := h.complete.nick
  rcases h.mask_eq with heq | ⟨r, heq⟩
  · exact hne (heq.symm.trans hnothing.2)
  · rw [heq] at hnothing
    exact hne (append_eq_nil_iff.1 hnothing.2).1

theorem addNick_entry_find (hkeyed : Keyed c) (h : NickShown t nick) (hpre : ∀ c ∈ sPrefix, t.isPermChar c = true)
    (sCurNick k : CString) :
    (c.addNick t sCurNick (sPrefix ++ nick.getNickMask)).1.findNick k =
      if k = nick.sNick then some (c.entered t (sPrefix ++ nick.getNickMask)) else c.findNick k := by
  rw [addNick_find hkeyed (entry_some h hpre), (entered_entry hkeyed h hpre).1]

/-- **An entry** puts the nick on the channel, with the permissions it had and those in front of it. -/
theorem addNick_entry (hkeyed : Keyed c) (h : NickShown t nick) (hpre : ∀ c ∈ sPrefix, t.isPermChar c = true)
    (sCurNick : CString) (hagrees : Agrees c g) :
    Agrees (c.addNick t sCurNick (sPrefix ++ nick.getNickMask)).1
      (g.enter nick.sNick (g.of nick.sNick ∪ {p | p ∈ sPrefix})) := by
  have hentered : (c.entered t (sPrefix ++ nick.getNickMask)).perms = g.of nick.sNick ∪ {p | p ∈ sPrefix} := by
    have h0 : ∀ p ∈ sPrefix, p ≠ 0 := fun p hp => (isPermChar_mem (hpre p hp)).1
    have hfrom : (c.entryFrom nick.sNick).perms = g.of nick.sNick := by
      unfold entryFrom Granted.of
      rw [← hagrees nick.sNick]
      cases c.findNick nick.sNick with
      | none => exact Set.ext fun p => ⟨fun hp => absurd hp List.not_mem_nil, fun hp => absurd hp (Set.notMem_empty p)⟩
      | some n => rfl
    have hperms := (entered_spec t c (sPrefix ++ nick.getNickMask)).2.2
    rw [(entry_read h hpre).1, (entry_read h hpre).2.2] at hperms
    rw [← hfrom, ← perms_foldl_addPerm _ h0, CNick.perms, CNick.perms, hperms, foldl_addPerm]
  intro k
  rw [addNick_entry_find hkeyed h hpre, Granted.enter]
  by_cases hk : k = nick.sNick
  · rw [if_pos hk, if_pos hk, map_some, hentered]
  · rw [if_neg hk, if_neg hk]
    exact hagrees k

theorem entries_split {entries : List NamesEntry} (h : ∀ e ∈ entries, e.Sent t) :
    ((lit " ").join (entries.map NamesEntry.text)).split (ch ' ') false = entries.map NamesEntry.text := by
  have hspace : ch ' ' ≠ 0 := by decide
  apply split_join hspace
  intro w hw
  obtain ⟨e, he, hw⟩ := mem_map.1 hw
  obtain ⟨hshown, hperms, hno⟩ := h e he
  rw [← hw, NamesEntry.text]
  refine ⟨fun h0 => ?_, fun hs => ?_, fun h0 => ?_⟩
  · have hmask := (append_eq_nil_iff.1 h0).2
    rcases hshown.mask_eq with heq | ⟨r, heq⟩
    · exact hshown.complete.nick (heq.symm.trans hmask)
    · rw [heq] at hmask
      exact hshown.complete.nick (append_eq_nil_iff.1 hmask).1
  · rcases mem_append.1 hs with hs | hs
    · exact hno hs
    · exact hshown.noSpace hs
  · rcases mem_append.1 h0 with h0 | h0
    · exact (isPermChar_mem (hperms 0 h0)).1 rfl
    · exact hshown.noNul h0

/-- **NAMES**: each entry adds to what its nick has -/
theorem addNicks_agrees (hkeyed : Keyed c) (h : Agrees c g) (sCurNick : CString) {entries : List NamesEntry}
    (hsent : ∀ e ∈ entries, e.Sent t) :
    Agrees (c.addNicks t sCurNick ((lit " ").join (entries.map NamesEntry.text)))
      (ChanLine.grant (· ∪ ·) t g (.names entries)) := by
  rw [addNicks, entries_split hsent, ChanLine.grant]
  induction entries generalizing c g with
  | nil => exact h
  | cons e entries ih =>
    have he := hsent e mem_cons_self
    exact ih (addNick_keyed hkeyed t sCurNick e.text) (addNick_entry hkeyed he.nick he.perms sCurNick h)
      fun x hx => hsent x (mem_cons_of_mem _ hx)

/-! ## Runs -/

theorem changeNick_agrees (h : Agrees c g) {sOldNick sNewNick : CString} (hne : sOldNick ≠ sNewNick) :
    Agrees (c.changeNick sOldNick sNewNick).1 (g.rename sOldNick sNewNick) := by
  have hold := h sOldNick
  cases hfind : c.findNick sOldNick with
  | none =>
    rw [hfind, map_none] at hold
    have hsame : (c.changeNick sOldNick sNewNick).1 = c := by rw [changeNick, hfind]
    simp only [hsame, Granted.rename, ← hold]
    exact h
  | some n =>
    rw [hfind, map_some] at hold
    intro k
    simp only [changeNick_find hfind, Granted.rename, ← hold]
    by_cases hk : k = sOldNick
    · rw [if_pos hk, hk, if_neg hne, if_pos rfl, map_none]
    · rw [if_neg hk]
      split_ifs
      · rfl
      · exact h k

theorem remNick_agrees (h : Agrees c g) (sNick : CString) :
    Agrees (c.remNick sNick) (g.leave sNick) := by
  intro k
  rw [findNick, remNick, OrdMap.find_erase, Granted.leave]
  split_ifs
  · rfl
  · exact h k

theorem exec_agrees (hlen : t.sPermModes.length = t.sPerms.length) (hkeyed : Keyed c) (hok : PermsOk t c)
    (h : Agrees c g) (sCurNick : CString) {line : ChanLine} (hsent : line.Sent t) :
    Agrees (line.op.exec t sCurNick c) (line.grant (· ∪ ·) t g) := by
  cases line with
  | names entries => exact addNicks_agrees hkeyed h sCurNick hsent
  | mode sModes vsModes => exact modeLoop_agrees hlen sCurNick hok h true vsModes sModes
  | nick sOldNick sNewNick => exact changeNick_agrees h hsent
  | join n =>
    have hentry := addNick_entry hkeyed hsent (fun c hc => absurd hc List.not_mem_nil) sCurNick h
    have hnone : {p : UInt8 | p ∈ ([] : CString)} = ∅ := by simp
    rw [hnone, Set.union_empty] at hentry
    exact hentry
  | part sNick => exact remNick_agrees h sNick

theorem runLines_concat (t : ServerTables) (lines : List (CString × ChanLine)) (l : CString × ChanLine) :
    runLines t (lines ++ [l]) = l.2.op.exec t l.1 (runLines t lines) := by
  rw [runLines, map_append, run, foldl_append]
  rfl

theorem runLines_inv (hlen : t.sPermModes.length = t.sPerms.length) {lines : List (CString × ChanLine)}
    (hsent : ∀ l ∈ lines, l.2.Sent t) :
    Keyed (runLines t lines) ∧ PermsOk t (runLines t lines) ∧
      Agrees (runLines t lines) (granted t (lines.map Prod.snd)) := by
  induction lines using List.reverseRecOn with
  | nil =>
    refine ⟨keyed_new, fun sNick n hn => ?_, fun sNick => rfl⟩
    cases hn
  | append_singleton lines l ih =>
    obtain ⟨hkeyed, hok, hagrees⟩ := ih fun l hl => hsent l (mem_append_left _ hl)
    have hl := hsent l (mem_append_right _ mem_cons_self)
    rw [runLines_concat, map_append, granted, foldl_append]
    exact ⟨exec_keyed hkeyed t l.1 l.2.op, exec_permsOk hkeyed hok l.1 l.2.op,
      exec_agrees hlen hkeyed hok hagrees l.1 hl⟩

/-- **The permissions of the nicks.** On every server and after every run of lines no permission character stands twice, all are
characters of PREFIX, and each nick has exactly what its entries of NAMES and the modes after them granted. -/
theorem perms_mirror (sChanPrefixes : CString) (lines005 : List CMessage) (lines : List (CString × ChanLine))
    (hsent : ∀ l ∈ lines, l.2.Sent (tables sChanPrefixes lines005)) :
    (∀ sNick n, (runLines (tables sChanPrefixes lines005) lines).findNick sNick = some n →
        n.PermsOk (tables sChanPrefixes lines005)) ∧
      Agrees (runLines (tables sChanPrefixes lines005) lines)
        (granted (tables sChanPrefixes lines005) (lines.map Prod.snd)) :=
  (runLines_inv (permTables_length sChanPrefixes lines005) hsent).2

/-- NAMES with an operator, who is then given a voice and loses the operator status -/
def operatorLines : List (CString × ChanLine) :=
  [(lit "me", .names [⟨lit "@", ⟨lit "alice", [], []⟩⟩]), (lit "me", .mode (lit "+v-o") [lit "alice", lit "alice"])]

theorem operatorLines_sent : ∀ l ∈ operatorLines, l.2.Sent (tables [] []) := by
  have hperm : ∀ c ∈ (lit "alice").head?, (tables [] []).isPermChar c = false := by
    intro c hc
    cases hc
    rfl
  have hshown : NickShown (tables [] []) ⟨lit "alice", [], []⟩ :=
    ⟨⟨by decide, by decide, .inl ⟨rfl, rfl⟩⟩, by decide, by decide, by decide, hperm⟩
  intro l hl
  rcases mem_cons.1 hl with hl | hl
  · rw [hl]
    intro e he
    rw [mem_singleton.1 he]
    refine ⟨hshown, fun c hc => ?_, by decide⟩
    rw [mem_singleton.1 hc]
    rfl
  · rw [mem_singleton.1 hl]
    trivial

/-- the operator has a voice in the end -/
theorem perms_mirror_operator : Agrees (runLines (tables [] []) operatorLines)
    (granted (tables [] []) (operatorLines.map Prod.snd)) :=
  (perms_mirror [] [] operatorLines operatorLines_sent).2

/-- an operator whom a second NAMES shows without a permission stays an operator -/
theorem perms_not_renewed :
    ¬ Agrees (runLines (tables [] []) [(lit "me", .names [⟨lit "@", ⟨lit "alice", [], []⟩⟩]),
        (lit "me", .names [⟨[], ⟨lit "alice", [], []⟩⟩])])
      (grantedAnew (tables [] []) [.names [⟨lit "@", ⟨lit "alice", [], []⟩⟩],
        .names [⟨[], ⟨lit "alice", [], []⟩⟩]]) := by
  intro h
  have halice := h (lit "alice")
  have hcode : ((runLines (tables [] []) [(lit "me", .names [⟨lit "@", ⟨lit "alice", [], []⟩⟩]),
      (lit "me", .names [⟨[], ⟨lit "alice", [], []⟩⟩])]).findNick (lit "alice")).map CNick.sChanPerms =
        some (lit "@") := by
    decide
  obtain ⟨n, hn, hperms⟩ := map_eq_some_iff.1 hcode
  rw [hn, map_some] at halice
  have hanew : n.perms = {c : UInt8 | c ∈ ([] : CString)} := some_inj.1 halice
  have hop : ch '@' ∈ n.perms := by
    have hmem : ch '@' ∈ n.sChanPerms := by
      rw [hperms]
      exact mem_singleton_self _
    exact hmem
  rw [hanew] at hop
  exact nomatch hop

end ZNC.Chan
