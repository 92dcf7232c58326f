/-
ZNC's own permissions on a channel, which are kept twice: in the entry of its nick and in `m_Nick` of the channel.

NAMES and MODE change both; KICK and the end of a connection `Reset` the channel, and with it `m_Nick`, which then knows no
network any more: its `GetPermStr` shows '@' and '+' only, whatever PREFIX says.

Model: `Session` is a connection with one channel, `SessionLine` a line of the server about it.

Results:
- `exec_inv`: what each line keeps, if it meets `LineOk`;
- `own_status`: in every run whose lines meet `LineOk` the two agree;
- `own_status_halfop`: a half operator who was kicked and comes back is not shown as one.
-/
import ZNC.ChanPerms
import ZNC.Lib.Journal

namespace ZNC.Chan

open CString Journal List

/-! ## Model -/

/-- the tables of the server, ZNC's nick, and the channel -/
structure Session where
  tables : ServerTables
  sNick : CString
  chan : Option CChan

/-- a line of the server, or a new connection; all lines are about the one channel -/
inductive SessionLine where
  | isupport (m : CMessage)
  | reconnect (sNick : CString)
  | join (n : ZNC.CNick)
  | names (entries : List NamesEntry)
  | mode (sModes : CString) (vsModes : VCString)
  | modeIs (sModes : CString) (vsModes : VCString)
  | nick (sOldNick sNewNick : CString)
  | kick (sKickedNick : CString)
  | part (sNick : CString)
  | quit (sNick : CString)

namespace Session

def onJoin (s : Session) (n : ZNC.CNick) : Session :=
  if n.nickEquals s.sNick then
    -- the channel object is there already if ZNC was on the channel before
    let c := (s.chan.getD .new).setIsOn true
    { s with chan := some (c.addNick s.tables s.sNick n.getNickMask).1 }
  else { s with chan := s.chan.map fun c => (c.addNick s.tables s.sNick n.getNickMask).1 }

def onNick (s : Session) (sOldNick sNewNick : CString) : Session :=
  { s with
    chan := s.chan.map fun c => (c.changeNick sOldNick sNewNick).1
    sNick := if sOldNick.equals s.sNick then sNewNick else s.sNick }

def onKick (s : Session) (sKickedNick : CString) : Session :=
  { s with chan := s.chan.map fun c =>
      let c := c.remNick sKickedNick
      if s.sNick.equals sKickedNick then c.setIsOn false else c }

def onPart (s : Session) (sNick : CString) : Session :=
  if sNick.equals s.sNick then { s with chan := none } else { s with chan := s.chan.map (·.remNick sNick) }

def onQuit (s : Session) (sNick : CString) : Session :=
  if sNick.equals s.sNick then s else { s with chan := s.chan.map (·.remNick sNick) }

def exec (s : Session) : SessionLine → Session
  | .isupport m => { s with tables := s.tables.parseISupport m }
  | .reconnect sNick => { tables := .initial s.tables.sChanPrefixes, sNick := sNick, chan := s.chan.map CChan.reset }
  | .join n => s.onJoin n
  | .names entries =>
    { s with chan := s.chan.map (·.addNicks s.tables s.sNick ((lit " ").join (entries.map NamesEntry.text))) }
  | .mode sModes vsModes => { s with chan := s.chan.map (·.modeChange s.tables s.sNick sModes vsModes) }
  | .modeIs sModes vsModes => { s with chan := s.chan.map (·.setModes s.tables s.sNick sModes vsModes) }
  | .nick sOldNick sNewNick => s.onNick sOldNick sNewNick
  | .kick sKickedNick => s.onKick sKickedNick
  | .part sNick => s.onPart sNick
  | .quit sNick => s.onQuit sNick

/-- a first connection -/
def initial (sChanPrefixes sNick : CString) : Session :=
  { tables := .initial sChanPrefixes, sNick := sNick, chan := none }

/-! ## The two agree -/

/-- on a channel that ZNC is on, `m_Nick` shows what the entry of ZNC's nick shows -/
def OwnAgrees (s : Session) : Prop :=
  ∀ c, s.chan = some c → c.bIsOn = true →
    ∃ n, c.findNick s.sNick = some n ∧ c.nick.getPermStr s.tables = n.getPermStr s.tables ∧
      ∀ cPerm, c.nick.hasPerm cPerm = n.hasPerm cPerm

/-- of '@' and '+', PREFIX has those that it has once and in this order -/
def Usual (t : ServerTables) : Prop := t.sPerms.filter (· ∈ lit "@+") = (lit "@+").filter (· ∈ t.sPerms)

instance (t : ServerTables) : Decidable (Usual t) := by unfold Usual; infer_instance

/-- a condition on the channel if it was `Reset` -/
def IfReset (s : Session) (P : CChan → Prop) : Prop := ∀ c, s.chan = some c → c.nick.bNetwork = false → P c

/-- what a line must be like. The server spells ZNC's nick as ZNC does, and nobody else has it; on a channel that was `Reset`,
ZNC gets no permissions but '@' and '+', and PREFIX shows these in the usual order -/
def LineOk (s : Session) : SessionLine → Prop
  | .isupport m => s.IfReset fun c =>
      (∀ cPerm ∈ c.nick.sChanPerms, cPerm ∈ (s.tables.parseISupport m).sPerms) ∧
        (c.bIsOn → Usual (s.tables.parseISupport m))
  | .join n => NickShown s.tables n ∧
      (n.sNick.equals s.sNick → n.sNick = s.sNick ∧ s.IfReset fun _ => Usual s.tables)
  | .names entries => ∀ e ∈ entries, e.Sent s.tables ∧
      (e.nick.sNick.equals s.sNick → e.nick.sNick = s.sNick ∧ s.IfReset fun _ => ∀ cPerm ∈ e.sPrefix, cPerm ∈ lit "@+")
  | .mode sModes vsModes | .modeIs sModes vsModes => s.IfReset fun _ =>
      ∀ cPerm, (true, cPerm, s.sNick) ∈ permChanges s.tables (signed true sModes) vsModes → cPerm ∈ lit "@+"
  | .nick sOldNick sNewNick =>
      if sOldNick.equals s.sNick then
        sOldNick = s.sNick ∧ sOldNick ≠ sNewNick ∧
          ∀ c, s.chan = some c → ∀ k ∈ c.msNicks.keys, k.equals sNewNick → k = sOldNick
      else sNewNick.equals s.sNick = false
  | _ => True

/-- the permissions of the entry of a nick, none if it has no entry -/
def entryPerms (c : CChan) (sNick : CString) : CString := ((c.findNick sNick).map CNick.sChanPerms).getD []

/-- what the lines keep of the nicks of the channel -/
structure NicksInv (t : ServerTables) (sNick : CString) (c : CChan) : Prop where
  keyed : Keyed c
  network : ∀ k n, c.findNick k = some n → n.bNetwork = true
  /-- no other nick passes for ZNC's -/
  own : ∀ k n, c.findNick k = some n → k.equals sNick → k = sNick
  perms : c.nick.sChanPerms.Perm (entryPerms c sNick)
  shown : c.nick.bNetwork = false → ∀ cPerm ∈ c.nick.sChanPerms, cPerm ∈ lit "@+" ∧ cPerm ∈ t.sPerms

/-- what the lines keep of the channel -/
structure OwnInv (t : ServerTables) (sNick : CString) (c : CChan) : Prop extends NicksInv t sNick c where
  present : c.bIsOn = true → (c.findNick sNick).isSome
  usual : c.bIsOn = true → c.nick.bNetwork = false → Usual t

theorem hasPerm_congr {n n' : CNick} (h : n.sChanPerms.Perm n'.sChanPerms) (cPerm : UInt8) :
    n.hasPerm cPerm = n'.hasPerm cPerm := by
  unfold CNick.hasPerm
  exact decide_eq_decide.2 (and_congr_right fun _ => h.mem_iff)

variable {t : ServerTables} {s : Session} {sNick : CString} {c : CChan}

theorem filter_usual (h : Usual t) {P : UInt8 → Bool}
    (hP : ∀ cPerm, P cPerm = true → cPerm ∈ lit "@+" ∧ cPerm ∈ t.sPerms) : (lit "@+").filter P = t.sPerms.filter P := by
  have hboth : ∀ l : CString, (∀ Q : UInt8 → Bool, (∀ cPerm, P cPerm = true → Q cPerm = true) →
      (l.filter Q).filter P = l.filter P) := by
    intro l Q hQ
    rw [filter_filter]
    apply filter_congr
    intro cPerm _
    cases hp : P cPerm with
    | false => rfl
    | true => rw [hQ cPerm hp]; rfl
  calc (lit "@+").filter P = ((lit "@+").filter (· ∈ t.sPerms)).filter P :=
        (hboth _ _ fun cPerm hp => decide_eq_true (hP cPerm hp).2).symm
    _ = (t.sPerms.filter (· ∈ lit "@+")).filter P := by rw [h]
    _ = t.sPerms.filter P := hboth _ _ fun cPerm hp => decide_eq_true (hP cPerm hp).1

theorem ownAgrees_of_inv (h : ∀ c, s.chan = some c → OwnInv s.tables s.sNick c) : s.OwnAgrees := by
  intro c hc hon
  have hinv := h c hc
  obtain ⟨n, hn⟩ := Option.isSome_iff_exists.1 (hinv.present hon)
  have hperms := hinv.perms
  rw [entryPerms, hn, Option.map_some, Option.getD_some] at hperms
  have hhas := hasPerm_congr hperms
  refine ⟨n, hn, ?_, hhas⟩
  have hsame : c.nick.hasPerm = n.hasPerm := funext hhas
  unfold CNick.getPermStr CNick.knownPerms
  rw [hinv.network _ n hn, if_pos rfl, hsame]
  cases hnet : c.nick.bNetwork with
  | true => rfl
  | false =>
    rw [if_neg Bool.false_ne_true]
    apply filter_usual (hinv.usual hon hnet)
    intro cPerm hp
    rw [← hhas] at hp
    have hmem : cPerm ≠ 0 ∧ cPerm ∈ c.nick.sChanPerms := by simpa [CNick.hasPerm] using hp
    exact hinv.shown hnet cPerm hmem.2

/-! ## What each line keeps -/

theorem permsAdd_perm {l l' : CString} (h : l.Perm l') (cPerm : UInt8) :
    (CChan.permsAdd l cPerm).Perm (CChan.permsAdd l' cPerm) := by
  unfold CChan.permsAdd
  by_cases hno : cPerm = 0 ∨ cPerm ∈ l
  · rw [if_pos hno, if_pos (hno.imp_right h.mem_iff.1)]
    exact h
  · rw [if_neg hno, if_neg fun h0 => hno (h0.imp_right h.mem_iff.2)]
    exact h.append_right _

theorem foldl_permsAdd_perm {l l' : CString} (h : l.Perm l') (sPrefix : CString) :
    (sPrefix.foldl CChan.permsAdd l).Perm (sPrefix.foldl CChan.permsAdd l') := by
  induction sPrefix generalizing l l' with
  | nil => exact h
  | cons cPerm sPrefix ih => exact ih (permsAdd_perm h cPerm)

theorem mem_permsAdd {l : CString} {cPerm c : UInt8} (h : c ∈ CChan.permsAdd l cPerm) : c ∈ l ∨ c = cPerm := by
  unfold CChan.permsAdd at h
  split_ifs at h
  · exact .inl h
  · rcases mem_append.1 h with h | h
    · exact .inl h
    · exact .inr (mem_singleton.1 h)

theorem mem_foldl_permsAdd {l sPrefix : CString} {c : UInt8} (h : c ∈ sPrefix.foldl CChan.permsAdd l) :
    c ∈ l ∨ c ∈ sPrefix := by
  induction sPrefix generalizing l with
  | nil => exact .inl h
  | cons cPerm sPrefix ih =>
    rcases ih h with h | h
    · rcases mem_permsAdd h with h | h
      · exact .inl h
      · exact .inr (by rw [h]; exact mem_cons_self)
    · exact .inr (mem_cons_of_mem _ h)

/-- **An entry** of NAMES or JOIN, as it is put on a channel that ZNC is on or not. -/
theorem NicksInv.addNick (h : NicksInv t sNick c) {nick : ZNC.CNick} (hshown : NickShown t nick) {sPrefix : CString}
    (hpre : ∀ cPerm ∈ sPrefix, t.isPermChar cPerm = true) (hown : nick.sNick.equals sNick → nick.sNick = sNick)
    (hreset : nick.sNick.equals sNick → c.nick.bNetwork = false → ∀ cPerm ∈ sPrefix, cPerm ∈ lit "@+") :
    NicksInv t sNick (c.addNick t sNick (sPrefix ++ nick.getNickMask)).1 := by
  obtain ⟨hname, hnetwork, hperms⟩ := entered_entry h.keyed hshown hpre
  have hfind := addNick_entry_find h.keyed hshown hpre sNick
  have hnick : (c.addNick t sNick (sPrefix ++ nick.getNickMask)).1.nick =
      if nick.sNick.equals sNick then { c.nick with sChanPerms := sPrefix.foldl CChan.permsAdd c.nick.sChanPerms }
      else c.nick := by
    rw [CChan.addNick_eq (entry_some hshown hpre), (entry_read hshown hpre).1]
    unfold ZNC.CNick.nickEquals
    rw [hname]
  constructor
  · exact addNick_keyed h.keyed t sNick _
  · intro k n hn
    rw [hfind] at hn
    split_ifs at hn
    · rw [← Option.some_inj.1 hn, hnetwork, CChan.entryFrom]
      cases hfrom : c.findNick nick.sNick with
      | none => rfl
      | some n' => exact h.network _ n' hfrom
    · exact h.network k n hn
  · intro k n hn hk
    rw [hfind] at hn
    split_ifs at hn with hkn
    · rw [hkn] at hk ⊢
      exact hown hk
    · exact h.own k n hn hk
  · rw [hnick, entryPerms, hfind]
    by_cases hk : nick.sNick.equals sNick = true
    · have hsame := hown hk
      rw [if_pos hk, if_pos hsame.symm, Option.map_some, Option.getD_some, hperms, hsame]
      exact foldl_permsAdd_perm h.perms sPrefix
    · have hne : sNick ≠ nick.sNick := by
        intro h0
        apply hk
        rw [h0]
        exact equals_refl _
      rw [if_neg hk, if_neg hne]
      exact h.perms
  · intro hnet cPerm hmem
    rw [hnick] at hnet hmem
    split_ifs at hnet hmem with hk
    · rcases mem_foldl_permsAdd hmem with hmem | hmem
      · exact h.shown hnet cPerm hmem
      · exact ⟨hreset hk hnet cPerm hmem, (isPermChar_mem (hpre cPerm hmem)).2⟩
    · exact h.shown hnet cPerm hmem

theorem addNick_frame (t : ServerTables) (sNick : CString) (c : CChan) (sEntry : CString) :
    (c.addNick t sNick sEntry).1.bIsOn = c.bIsOn ∧ (c.addNick t sNick sEntry).1.nick.bNetwork = c.nick.bNetwork := by
  by_cases hsome : CChan.entryPrefix t sEntry ≠ [] ∧ CChan.entryMask t sEntry = []
  · rw [CChan.addNick, if_pos hsome]
    exact ⟨rfl, rfl⟩
  · rw [CChan.addNick_eq hsome]
    refine ⟨rfl, ?_⟩
    dsimp only
    split_ifs <;> rfl

theorem OwnInv.addNick (h : OwnInv t sNick c) {nick : ZNC.CNick} (hshown : NickShown t nick) {sPrefix : CString}
    (hpre : ∀ cPerm ∈ sPrefix, t.isPermChar cPerm = true) (hown : nick.sNick.equals sNick → nick.sNick = sNick)
    (hreset : nick.sNick.equals sNick → c.nick.bNetwork = false → ∀ cPerm ∈ sPrefix, cPerm ∈ lit "@+") :
    OwnInv t sNick (c.addNick t sNick (sPrefix ++ nick.getNickMask)).1 := by
  obtain ⟨hon, hnet⟩ := addNick_frame t sNick c (sPrefix ++ nick.getNickMask)
  refine ⟨h.toNicksInv.addNick hshown hpre hown hreset, fun h1 => ?_, fun h1 h2 => ?_⟩
  · rw [addNick_entry_find h.keyed hshown hpre]
    rw [hon] at h1
    split_ifs
    · rfl
    · exact h.present h1
  · rw [hon] at h1
    rw [hnet] at h2
    exact h.usual h1 h2

/-- a permission added or removed, on the permission characters alone -/
def permsChange (bAdd : Bool) (cPerm : UInt8) (sPerms : CString) : CString :=
  if bAdd then CChan.permsAdd sPerms cPerm else sPerms.erase cPerm

theorem permsChange_eq (bAdd : Bool) (cPerm : UInt8) (n : CNick) :
    (if bAdd then n.addPerm cPerm else n.remPerm cPerm) = { n with sChanPerms := permsChange bAdd cPerm n.sChanPerms } := by
  rw [CChan.addPerm_eq]
  cases bAdd <;> rfl

theorem permsChange_perm {l l' : CString} (h : l.Perm l') (bAdd : Bool) (cPerm : UInt8) :
    (permsChange bAdd cPerm l).Perm (permsChange bAdd cPerm l') := by
  cases bAdd with
  | true => exact permsAdd_perm h cPerm
  | false => exact h.erase cPerm

theorem mem_permsChange {l : CString} {bAdd : Bool} {cPerm c : UInt8} (h : c ∈ permsChange bAdd cPerm l) :
    c ∈ l ∨ bAdd = true ∧ c = cPerm := by
  cases bAdd with
  | true => exact (mem_permsAdd h).imp_right fun h0 => ⟨rfl, h0⟩
  | false => exact .inl (mem_of_mem_erase h)

theorem NicksInv.permMode_eq (h : NicksInv t sNick c) {cMode : UInt8} {sArg : CString} {n : CNick}
    (hfind : c.findNick sArg = some n) (hperm : t.getPermFromMode cMode ≠ 0) (bAdd : Bool) :
    c.permMode t sNick bAdd cMode sArg =
      { c with
        msNicks := c.msNicks.insert sArg { n with sChanPerms := permsChange bAdd (t.getPermFromMode cMode) n.sChanPerms }
        nick := if sArg = sNick then
            { c.nick with sChanPerms := permsChange bAdd (t.getPermFromMode cMode) c.nick.sChanPerms }
          else c.nick } := by
  have hown : n.nickEquals sNick = true ↔ sArg = sNick := by
    unfold ZNC.CNick.nickEquals
    rw [h.keyed _ n hfind]
    constructor
    · intro h0
      exact h.own _ n hfind h0
    · intro h0
      rw [h0]
      exact equals_refl _
  rw [CChan.permMode_eq hfind hperm, permsChange_eq, permsChange_eq, if_congr hown rfl rfl]

theorem NicksInv.permMode (h : NicksInv t sNick c) (bAdd : Bool) (cMode : UInt8) (sArg : CString)
    (hreset : c.nick.bNetwork = false → t.getPermFromMode cMode ≠ 0 → bAdd = true →
      sArg = sNick → t.getPermFromMode cMode ∈ lit "@+") : NicksInv t sNick (c.permMode t sNick bAdd cMode sArg) := by
  cases hfind : c.findNick sArg with
  | none =>
    rw [CChan.permMode_eq_self (.inl hfind)]
    exact h
  | some n =>
    by_cases hperm : t.getPermFromMode cMode = 0
    · rw [CChan.permMode_eq_self (.inr hperm)]
      exact h
    have hentry : ∀ k, (c.permMode t sNick bAdd cMode sArg).findNick k =
        if k = sArg then some { n with sChanPerms := permsChange bAdd (t.getPermFromMode cMode) n.sChanPerms }
        else c.findNick k := by
      intro k
      rw [h.permMode_eq hfind hperm, CChan.findNick, OrdMap.find_insert]
      split_ifs <;> rfl
    have hnick : (c.permMode t sNick bAdd cMode sArg).nick =
        if sArg = sNick then { c.nick with sChanPerms := permsChange bAdd (t.getPermFromMode cMode) c.nick.sChanPerms }
        else c.nick := by
      rw [h.permMode_eq hfind hperm]
    constructor
    · exact permMode_keyed h.keyed t sNick bAdd cMode sArg
    · intro k n' hn'
      rw [hentry] at hn'
      by_cases hk : k = sArg
      · rw [if_pos hk] at hn'
        rw [← Option.some_inj.1 hn']
        exact h.network _ n hfind
      · rw [if_neg hk] at hn'
        exact h.network k n' hn'
    · intro k n' hn' hk
      rw [hentry] at hn'
      by_cases hka : k = sArg
      · rw [hka] at hk ⊢
        exact h.own _ n hfind hk
      · rw [if_neg hka] at hn'
        exact h.own k n' hn' hk
    · rw [hnick, entryPerms, hentry]
      by_cases hsame : sArg = sNick
      · have hperms := h.perms
        rw [entryPerms, ← hsame, hfind] at hperms
        rw [if_pos hsame, if_pos hsame.symm]
        exact permsChange_perm hperms bAdd _
      · rw [if_neg hsame, if_neg (Ne.symm hsame)]
        exact h.perms
    · intro hnet cPerm hmem
      rw [hnick] at hnet hmem
      by_cases hsame : sArg = sNick
      · rw [if_pos hsame] at hnet hmem
        rcases mem_permsChange hmem with hmem | ⟨hadd, hmem⟩
        · exact h.shown hnet cPerm hmem
        · rw [hmem]
          exact ⟨hreset hnet hperm hadd hsame, getPermFromMode_mem hperm⟩
      · rw [if_neg hsame] at hnet hmem
        exact h.shown hnet cPerm hmem

theorem permMode_frame (t : ServerTables) (sNick : CString) (c : CChan) (bAdd : Bool) (cMode : UInt8) (sArg : CString) :
    (c.permMode t sNick bAdd cMode sArg).bIsOn = c.bIsOn ∧
      (c.permMode t sNick bAdd cMode sArg).nick.bNetwork = c.nick.bNetwork ∧
      ∀ k, ((c.permMode t sNick bAdd cMode sArg).findNick k).isSome = (c.findNick k).isSome := by
  cases hfind : c.findNick sArg with
  | none =>
    rw [CChan.permMode_eq_self (.inl hfind)]
    exact ⟨rfl, rfl, fun _ => rfl⟩
  | some n =>
    by_cases hperm : t.getPermFromMode cMode = 0
    · rw [CChan.permMode_eq_self (.inr hperm)]
      exact ⟨rfl, rfl, fun _ => rfl⟩
    · rw [CChan.permMode_eq hfind hperm, permsChange_eq, permsChange_eq]
      refine ⟨rfl, ?_, fun k => ?_⟩
      · dsimp only
        split_ifs <;> rfl
      · rw [CChan.findNick, OrdMap.find_insert]
        split_ifs with hk
        · rw [hk, hfind]
          rfl
        · rfl

/-- **A permission mode.** -/
theorem OwnInv.permMode (h : OwnInv t sNick c) (bAdd : Bool) (cMode : UInt8) (sArg : CString)
    (hreset : c.nick.bNetwork = false → t.getPermFromMode cMode ≠ 0 → bAdd = true → sArg = sNick →
      t.getPermFromMode cMode ∈ lit "@+") : OwnInv t sNick (c.permMode t sNick bAdd cMode sArg) := by
  obtain ⟨hon, hnet, hsome⟩ := permMode_frame t sNick c bAdd cMode sArg
  refine ⟨h.toNicksInv.permMode bAdd cMode sArg hreset, fun h1 => ?_, fun h1 h2 => ?_⟩
  · rw [hsome]
    rw [hon] at h1
    exact h.present h1
  · rw [hon] at h1
    rw [hnet] at h2
    exact h.usual h1 h2

theorem OwnInv.congr {c' : CChan} (h : OwnInv t sNick c) (hnicks : c'.msNicks = c.msNicks) (hnick : c'.nick = c.nick)
    (hon : c'.bIsOn = c.bIsOn) : OwnInv t sNick c' := by
  have hfind : ∀ k, c'.findNick k = c.findNick k := fun k => by rw [CChan.findNick, CChan.findNick, hnicks]
  refine ⟨⟨h.keyed.congr hnicks, fun k n hn => ?_, fun k n hn => ?_, ?_, ?_⟩, ?_, ?_⟩
  · rw [hfind] at hn
    exact h.network k n hn
  · rw [hfind] at hn
    exact h.own k n hn
  · rw [entryPerms, hfind, hnick]
    exact h.perms
  · rw [hnick]
    exact h.shown
  · rw [hfind, hon]
    exact h.present
  · rw [hon, hnick]
    exact h.usual

/-- **A mode line.** -/
theorem OwnInv.modeChange (hlen : t.sPermModes.length = t.sPerms.length) (h : OwnInv t sNick c) (sModes : CString)
    (vsModes : VCString)
    (hreset : c.nick.bNetwork = false → ∀ cPerm, (true, cPerm, sNick) ∈ permChanges t (signed true sModes) vsModes →
      cPerm ∈ lit "@+") :
    OwnInv t sNick (c.modeChange t sNick sModes vsModes) := by
  have hrun : OwnInv t sNick (c.modeChange t sNick sModes vsModes) ∧
      (c.modeChange t sNick sModes vsModes).nick.bNetwork = c.nick.bNetwork := by
    apply modeLoop_changes_inv (P := fun c' => OwnInv t sNick c' ∧ c'.nick.bNetwork = c.nick.bNetwork) hlen
    · intro c' bAdd cMode sArg hc' hmem
      obtain ⟨hinv, hnet⟩ := hc'
      refine ⟨hinv.permMode bAdd cMode sArg fun h1 h2 h3 h4 => ?_,
        (permMode_frame t sNick c' bAdd cMode sArg).2.1.trans hnet⟩
      have hchange := hmem h2
      rw [h3, h4] at hchange
      exact hreset (hnet.symm.trans h1) _ hchange
    · intro c' bAdd cMode sArg hc'
      obtain ⟨hnicks, hnick, hon⟩ := CChan.chanMode_frame t c' bAdd cMode sArg
      refine ⟨hc'.1.congr hnicks hnick hon, ?_⟩
      rw [hnick]
      exact hc'.2
    · exact ⟨h, rfl⟩
    · exact fun x hx => hx
  exact hrun.1

theorem ownInv_new (t : ServerTables) (sNick : CString) : OwnInv t sNick .new := by
  refine ⟨⟨keyed_new, fun k n hn => ?_, fun k n hn => ?_, List.Perm.nil, fun hnet => ?_⟩, fun hon => ?_, fun hon => ?_⟩
  · cases hn
  · cases hn
  · cases hnet
  · cases hon
  · cases hon

theorem ownInv_reset (t : ServerTables) (sNick : CString) (c : CChan) : OwnInv t sNick c.reset := by
  refine ⟨⟨fun k n hn => ?_, fun k n hn => ?_, fun k n hn => ?_, List.Perm.nil, fun _ cPerm hmem => ?_⟩, fun hon => ?_,
    fun hon => ?_⟩
  · cases hn
  · cases hn
  · cases hn
  · cases hmem
  · cases hon
  · cases hon

theorem OwnInv.remNick (h : OwnInv t sNick c) {k : CString} (hk : k ≠ sNick) :
    OwnInv t sNick (c.remNick k) := by
  have hfind : ∀ k', (c.remNick k).findNick k' = if k' = k then none else c.findNick k' := by
    intro k'
    rw [CChan.remNick, CChan.findNick, OrdMap.find_erase]
    split_ifs <;> rfl
  have hown : (c.remNick k).findNick sNick = c.findNick sNick := by rw [hfind, if_neg (Ne.symm hk)]
  have hsub : ∀ k' n, (c.remNick k).findNick k' = some n → c.findNick k' = some n := by
    intro k' n hn
    rw [hfind] at hn
    by_cases hk' : k' = k
    · rw [if_pos hk'] at hn
      cases hn
    · rw [if_neg hk'] at hn
      exact hn
  refine ⟨⟨remNick_keyed h.keyed k, fun k' n hn => h.network k' n (hsub k' n hn),
    fun k' n hn => h.own k' n (hsub k' n hn), ?_,
    h.shown⟩, fun hon => ?_, h.usual⟩
  · rw [entryPerms, hown]
    exact h.perms
  · rw [hown]
    exact h.present hon

theorem OwnInv.changeNick {sNick' : CString} (h : OwnInv t sNick c) {sOldNick sNewNick : CString}
    (hnick : sNick' = sNick ∧ sOldNick ≠ sNick ∧ sNewNick.equals sNick = false ∨
      sNick' = sNewNick ∧ sOldNick = sNick ∧ sOldNick ≠ sNewNick ∧
        ∀ k ∈ c.msNicks.keys, k.equals sNewNick → k = sOldNick) :
    OwnInv t sNick' (c.changeNick sOldNick sNewNick).1 := by
  have hkeyed := changeNick_keyed h.keyed sOldNick sNewNick
  cases hfind : c.findNick sOldNick with
  | none =>
    have hsame : (c.changeNick sOldNick sNewNick).1 = c := by rw [CChan.changeNick, hfind]
    rw [hsame]
    rcases hnick with ⟨hn, -, -⟩ | ⟨hn, hold, hne, hfree⟩
    · rw [hn]
      exact h
    · -- ZNC is not in this table, neither under the old nick nor under the new one
      have hnone : c.findNick sNewNick = none := by
        cases hnew : c.findNick sNewNick with
        | none => rfl
        | some n =>
          have hmem : sNewNick ∈ c.msNicks.keys := by
            rw [mem_keys_iff, hnew]
            rfl
          exact absurd (hfree _ hmem (equals_refl _)) (Ne.symm hne)
      have hperms := h.perms
      rw [hold] at hfind
      rw [entryPerms, hfind] at hperms
      rw [hn]
      refine ⟨⟨h.keyed, h.network, fun k n hk hequals => ?_, ?_, h.shown⟩, fun hon => ?_, h.usual⟩
      · have hmem : k ∈ c.msNicks.keys := by
          rw [mem_keys_iff, hk]
          rfl
        rw [hfree k hmem hequals, hold, hfind] at hk
        cases hk
      · rw [entryPerms, hnone]
        exact hperms
      · have hpresent := h.present hon
        rw [hfind] at hpresent
        cases hpresent
  | some n =>
    have hentry := CChan.changeNick_find hfind sNewNick
    have hframe : (c.changeNick sOldNick sNewNick).1.nick = c.nick ∧
      (c.changeNick sOldNick sNewNick).1.bIsOn = c.bIsOn := by
      rw [CChan.changeNick, hfind]
      exact ⟨rfl, rfl⟩
    have hnetwork : ∀ k n', (c.changeNick sOldNick sNewNick).1.findNick k = some n' → n'.bNetwork = true := by
      intro k n' hn'
      rw [hentry] at hn'
      split_ifs at hn'
      · rw [← Option.some_inj.1 hn']
        exact h.network _ n hfind
      · exact h.network k n' hn'
    -- the entry of ZNC's nick is where it was, or under its new nick
    have hown : (c.changeNick sOldNick sNewNick).1.findNick sNick' =
        (c.findNick sNick).map fun n' => { n' with sNick := sNick' } := by
      rw [hentry]
      rcases hnick with ⟨hn, hold, hnew⟩ | ⟨hn, hold, hne, -⟩
      · have hne : sNick ≠ sNewNick := by
          intro h0
          rw [← h0, equals_refl] at hnew
          cases hnew
        rw [hn, if_neg (Ne.symm hold), if_neg hne]
        cases hsome : c.findNick sNick with
        | none => rfl
        | some n' =>
          have hname := h.keyed _ n' hsome
          rw [Option.map_some, ← hname]
      · rw [hn, if_neg (Ne.symm hne), if_pos rfl, ← hold, hfind, Option.map_some]
    refine ⟨⟨hkeyed, hnetwork, fun k n' hn' hk => ?_, ?_, ?_⟩, fun hon => ?_, fun hon => ?_⟩
    · rw [hentry] at hn'
      rcases hnick with ⟨hn, hold, hnew⟩ | ⟨hn, hold, hne, hfree⟩
      · rw [hn] at hk ⊢
        split_ifs at hn' with h1 h2
        · rw [h2, hnew] at hk
          cases hk
        · exact h.own k n' hn' hk
      · rw [hn] at hk ⊢
        split_ifs at hn' with h1 h2
        · exact h2
        · have hmem : k ∈ c.msNicks.keys := by
            rw [mem_keys_iff, hn']
            rfl
          exact absurd (hfree k hmem hk) h1
    · rw [hframe.1, entryPerms, hown, Option.map_map]
      exact h.perms
    · rw [hframe.1]
      exact h.shown
    · rw [hframe.2] at hon
      rw [hown, Option.isSome_map]
      exact h.present hon
    · rw [hframe.2] at hon
      rw [hframe.1]
      exact h.usual hon

/-! ## Runs -/

/-- what the lines keep of the session -/
structure SessionInv (s : Session) : Prop where
  tables : ∃ sChanPrefixes lines, s.tables = ServerTables.tables sChanPrefixes lines
  chan : ∀ c, s.chan = some c → OwnInv s.tables s.sNick c

theorem sessionInv_initial (sChanPrefixes sNick : CString) : SessionInv (initial sChanPrefixes sNick) :=
  ⟨⟨sChanPrefixes, [], rfl⟩, fun c hc => by cases hc⟩

theorem SessionInv.length (h : SessionInv s) : s.tables.sPermModes.length = s.tables.sPerms.length := by
  obtain ⟨sChanPrefixes, lines, htables⟩ := h.tables
  rw [htables]
  exact ServerTables.permTables_length sChanPrefixes lines

theorem SessionInv.map (h : SessionInv s) {f : CChan → CChan}
    (hf : ∀ c, s.chan = some c → OwnInv s.tables s.sNick c → OwnInv s.tables s.sNick (f c)) :
    SessionInv { s with chan := s.chan.map f } := by
  refine ⟨h.tables, fun c' hc' => ?_⟩
  obtain ⟨c, hc, hfc⟩ := Option.map_eq_some_iff.1 hc'
  rw [← hfc]
  exact hf c hc (h.chan c hc)

theorem onJoin_inv (h : SessionInv s) {n : ZNC.CNick} (hok : s.LineOk (.join n)) :
    SessionInv (s.onJoin n) := by
  obtain ⟨hshown, hown⟩ := hok
  have hno : ∀ cPerm ∈ ([] : CString), s.tables.isPermChar cPerm = true :=
    fun cPerm hmem => nomatch hmem
  have hno' : ∀ cPerm ∈ ([] : CString), cPerm ∈ lit "@+" := fun cPerm hmem => nomatch hmem
  unfold onJoin
  by_cases hnick : n.nickEquals s.sNick = true
  · obtain ⟨hsame, husual⟩ := hown hnick
    rw [if_pos hnick]
    refine ⟨h.tables, fun c' hc' => ?_⟩
    rw [← Option.some_inj.1 hc']
    -- the channel as it was, or a new one
    have hbefore : OwnInv s.tables s.sNick (s.chan.getD .new) ∧
        ((s.chan.getD .new).nick.bNetwork = false → Usual s.tables) := by
      cases hchan : s.chan with
      | none => exact ⟨ownInv_new _ _, fun hnet => by cases hnet⟩
      | some c => exact ⟨h.chan c hchan, husual c hchan⟩
    obtain ⟨hinv, hreset⟩ := hbefore
    have hnicks : NicksInv s.tables s.sNick ((s.chan.getD .new).setIsOn true) := by
      have hon : (s.chan.getD .new).setIsOn true = { s.chan.getD .new with bIsOn := true } := rfl
      rw [hon]
      exact ⟨hinv.keyed, hinv.network, hinv.own, hinv.perms, hinv.shown⟩
    have hnet := (addNick_frame s.tables s.sNick ((s.chan.getD .new).setIsOn true) n.getNickMask).2
    refine ⟨hnicks.addNick hshown hno (fun _ => hsame) fun _ _ => hno', fun _ => ?_, fun _ hfalse => ?_⟩
    · have hfind := addNick_entry_find hnicks.keyed hshown hno s.sNick s.sNick
      rw [if_pos hsame.symm] at hfind
      rw [nil_append] at hfind
      rw [hfind]
      rfl
    · rw [hnet] at hfalse
      exact hreset hfalse
  · rw [if_neg hnick]
    exact h.map fun c _ hc => hc.addNick hshown hno (fun h0 => absurd h0 hnick) fun _ _ => hno'

theorem onNames_inv (h : SessionInv s) {entries : List NamesEntry} (hok : s.LineOk (.names entries)) :
    SessionInv (s.exec (.names entries)) := by
  apply h.map
  intro c hchan hc
  have hsent : ∀ e ∈ entries, e.Sent s.tables := fun e he => (hok e he).1
  rw [CChan.addNicks, entries_split hsent]
  have hreset : ∀ e ∈ entries, e.nick.sNick.equals s.sNick → c.nick.bNetwork = false →
    ∀ cPerm ∈ e.sPrefix, cPerm ∈ lit "@+" :=
    fun e he h1 h2 => ((hok e he).2 h1).2 c hchan h2
  have hown : ∀ e ∈ entries, e.nick.sNick.equals s.sNick → e.nick.sNick = s.sNick := fun e he h1 => ((hok e he).2 h1).1
  clear hok hchan
  induction entries generalizing c with
  | nil => exact hc
  | cons e entries ih =>
    have he : e ∈ e :: entries := mem_cons_self
    have hnet := (addNick_frame s.tables s.sNick c e.text).2
    apply ih _ (hc.addNick (hsent e he).nick (hsent e he).perms (hown e he) (hreset e he))
    · exact fun x hx => hsent x (mem_cons_of_mem _ hx)
    · intro x hx h1 h2
      rw [NamesEntry.text] at hnet
      rw [hnet] at h2
      exact hreset x (mem_cons_of_mem _ hx) h1 h2
    · exact fun x hx => hown x (mem_cons_of_mem _ hx)

theorem onNick_inv (h : SessionInv s) {sOldNick sNewNick : CString} (hok : s.LineOk (.nick sOldNick sNewNick)) :
    SessionInv (s.onNick sOldNick sNewNick) := by
  refine ⟨h.tables, fun c' hc' => ?_⟩
  obtain ⟨c, hc, hfc⟩ := Option.map_eq_some_iff.1 hc'
  rw [← hfc]
  apply (h.chan c hc).changeNick
  rw [LineOk] at hok
  dsimp only [onNick]
  by_cases hown : sOldNick.equals s.sNick = true
  · rw [if_pos hown] at hok ⊢
    right
    exact ⟨rfl, hok.1, hok.2.1, hok.2.2 c hc⟩
  · rw [if_neg hown] at hok ⊢
    left
    refine ⟨rfl, fun h0 => hown ?_, hok⟩
    rw [h0]
    exact equals_refl _

theorem onKick_inv (h : SessionInv s) (sKickedNick : CString) : SessionInv (s.onKick sKickedNick) := by
  apply h.map
  intro c _ hc
  dsimp only
  by_cases hown : s.sNick.equals sKickedNick = true
  · rw [if_pos hown]
    exact ownInv_reset _ _ _
  · rw [if_neg hown]
    apply hc.remNick
    intro h0
    apply hown
    rw [h0]
    exact equals_refl _

theorem exec_inv (h : SessionInv s) {line : SessionLine} (hok : s.LineOk line) :
    SessionInv (s.exec line) := by
  have hgone : ∀ sNick : CString, ¬sNick.equals s.sNick = true →
    SessionInv { s with chan := s.chan.map (·.remNick sNick) } := by
    intro sNick hother
    apply h.map
    intro c _ hc
    apply hc.remNick
    intro h0
    apply hother
    rw [h0]
    exact equals_refl _
  cases line with
  | isupport m =>
    obtain ⟨sChanPrefixes, lines, htables⟩ := h.tables
    refine ⟨⟨sChanPrefixes, lines ++ [m], ?_⟩, fun c hc => ?_⟩
    · rw [ServerTables.tables, foldl_concat, exec, htables]
      rfl
    · have hinv := h.chan c hc
      refine ⟨⟨hinv.keyed, hinv.network, hinv.own, hinv.perms, fun hnet cPerm hmem => ?_⟩, hinv.present,
        fun hon hnet => ?_⟩
      · exact ⟨(hinv.shown hnet cPerm hmem).1, (hok c hc hnet).1 cPerm hmem⟩
      · exact (hok c hc hnet).2 hon
  | reconnect sNick =>
    refine ⟨⟨s.tables.sChanPrefixes, [], rfl⟩, fun c' hc' => ?_⟩
    obtain ⟨c, -, hfc⟩ := Option.map_eq_some_iff.1 hc'
    rw [← hfc]
    exact ownInv_reset _ _ c
  | join n => exact onJoin_inv h hok
  | names entries => exact onNames_inv h hok
  | mode sModes vsModes =>
    exact h.map fun c hc hinv => hinv.modeChange h.length sModes vsModes (hok c hc)
  | modeIs sModes vsModes =>
    apply h.map
    intro c hc hinv
    exact (hinv.congr rfl rfl rfl : OwnInv _ _ { c with mcsModes := .empty }).modeChange h.length sModes vsModes (hok c hc)
  | nick sOldNick sNewNick => exact onNick_inv h hok
  | kick sKickedNick => exact onKick_inv h sKickedNick
  | part sNick =>
    rw [exec, onPart]
    by_cases hown : sNick.equals s.sNick = true
    · rw [if_pos hown]
      exact ⟨h.tables, fun c hc => by cases hc⟩
    · rw [if_neg hown]
      exact hgone sNick hown
  | quit sNick =>
    rw [exec, onQuit]
    by_cases hown : sNick.equals s.sNick = true
    · rw [if_pos hown]
      exact h
    · rw [if_neg hown]
      exact hgone sNick hown

/-- **ZNC's own status.** In every run whose lines meet `LineOk`, `m_Nick` agrees with the entry of ZNC's nick on the channel that
ZNC is on. -/
theorem own_status (sChanPrefixes sNick : CString) (lines : List SessionLine)
    (hok : Along exec (fun _ => LineOk) lines (initial sChanPrefixes sNick)) :
    (lines.foldl exec (initial sChanPrefixes sNick)).OwnAgrees := by
  apply ownAgrees_of_inv
  have hinv := along_inv exec (fun line _ s (h : SessionInv s) hline => exec_inv h hline) lines _
    (sessionInv_initial sChanPrefixes sNick) hok
  exact hinv.chan

/-- ZNC joins, is kicked, comes back and gets the permissions `sPrefix` -/
def comesBack (sPrefix : CString) : List SessionLine :=
  [.join ⟨lit "me", [], []⟩, .kick (lit "me"), .join ⟨lit "me", [], []⟩, .names [⟨sPrefix, ⟨lit "me", [], []⟩⟩]]

/-- as an operator -/
theorem own_status_operator : ((comesBack (lit "@")).foldl exec (initial [] (lit "me"))).OwnAgrees := by
  have hperm : ∀ c ∈ (lit "me").head?, (ServerTables.initial []).isPermChar c = false := by
    intro c hc
    cases hc
    rfl
  have hshown : NickShown (ServerTables.initial []) ⟨lit "me", [], []⟩ :=
    ⟨⟨by decide, by decide, .inl ⟨rfl, rfl⟩⟩, by decide, by decide, by decide, hperm⟩
  have husual : Usual (ServerTables.initial []) := by decide
  have hat : ∀ cPerm ∈ lit "@", cPerm ∈ lit "@+" := by simp [lit]
  apply own_status [] (lit "me") (comesBack (lit "@"))
  refine ⟨⟨hshown, fun _ => ⟨rfl, fun _ _ _ => husual⟩⟩, trivial,
    ⟨hshown, fun _ => ⟨rfl, fun _ _ _ => husual⟩⟩, ?_, trivial⟩
  intro e he
  rw [mem_singleton.1 he]
  refine ⟨⟨hshown, fun c hc => ?_, by decide⟩, fun _ => ⟨rfl, fun _ _ _ => hat⟩⟩
  rw [mem_singleton.1 hc]
  rfl

/-- as a half operator: `m_Nick` does not show it, the entry of the nick does -/
theorem own_status_halfop : ¬ ((comesBack (lit "%")).foldl exec (initial [] (lit "me"))).OwnAgrees := by
  intro h
  have hcode : ((comesBack (lit "%")).foldl exec (initial [] (lit "me"))).chan.map (fun c =>
      (c.bIsOn, c.nick.getPermStr (.initial []), (c.findNick (lit "me")).map (CNick.getPermStr (.initial [])))) =
      some (true, [], some (lit "%")) := by decide
  have htables : ((comesBack (lit "%")).foldl exec (initial [] (lit "me"))).tables = .initial [] := rfl
  have hnick : ((comesBack (lit "%")).foldl exec (initial [] (lit "me"))).sNick = lit "me" := by decide
  obtain ⟨c, hc, hshown⟩ := Option.map_eq_some_iff.1 hcode
  obtain ⟨hon, hshown⟩ := Prod.mk.inj hshown
  obtain ⟨hown, hentry⟩ := Prod.mk.inj hshown
  obtain ⟨n, hn, hsame, -⟩ := h c hc hon
  rw [htables, hown] at hsame
  rw [hnick] at hn
  rw [hn, Option.map_some, ← hsame] at hentry
  exact absurd hentry (by decide)

end Session

end ZNC.Chan
