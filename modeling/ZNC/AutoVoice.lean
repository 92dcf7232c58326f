/-
Who gets a voice: `modules/autovoice.cpp`.

The table of the users has the channels of the arguments too, under a name of their own, and small names for its keys; the registry has
the names as they were typed.

Model: a channel has a name that is not empty; a user of ZNC that joins has its host mask. `stored` are the users that were added and
not deleted since, with their channels; `said` has what `PutModule` said, the newest first.

Results:
- `fromString_toString`: a user comes back from its line, but for an empty channel word;
- `good_of_inv`: who gets a voice, also after a reload;
- `voice_run`: both in every state of a run whose commands meet `Meets`;
- `two_arguments`: of two arguments only the last counts.
-/
import ZNC.AutoOpUsers
import ZNC.Lib.Runs
import ZNC.Registry

namespace ZNC.AutoVoice

open CString List OrdMap OrdSet
open AutoOp (wildCmpNoCase)

/-! ## Model -/

structure CAutoVoiceUser where
  m_sUsername : CString
  m_sHostmask : CString
  m_ssChans : SCString
deriving DecidableEq

namespace CAutoVoiceUser

def channelMatches (u : CAutoVoiceUser) (sChan : CString) : Bool :=
  u.m_ssChans.toList.any fun s => wildCmpNoCase s sChan.asLower

def hostMatches (u : CAutoVoiceUser) (sHostmask : CString) : Bool := wildCmpNoCase u.m_sHostmask sHostmask

/-- the loop of `GetChannels` and `ToString` -/
def joinChans (sRet sChan : CString) : CString := (if sRet ≠ [] then sRet ++ lit " " else sRet) ++ sChan

def getChannels (u : CAutoVoiceUser) : CString := u.m_ssChans.toList.foldl joinChans []

def delChans (u : CAutoVoiceUser) (sChans : CString) : CAutoVoiceUser :=
  { u with m_ssChans := (sChans.split (ch ' ') true).foldl (fun ss sChan => ss.erase sChan.asLower) u.m_ssChans }

def addChans (u : CAutoVoiceUser) (sChans : CString) : CAutoVoiceUser :=
  { u with m_ssChans := (sChans.split (ch ' ') true).foldl (fun ss sChan => ss.insert sChan.asLower) u.m_ssChans }

/-- `CAutoVoiceUser(sUsername, sHostmask, sChannels)` -/
def new (sUsername sHostmask sChannels : CString) : CAutoVoiceUser :=
  (⟨sUsername, sHostmask, .empty⟩ : CAutoVoiceUser).addChans sChannels

def toString (u : CAutoVoiceUser) : CString :=
  u.m_sUsername ++ lit "\t" ++ u.m_sHostmask ++ lit "\t" ++ u.getChannels

/-- the user, and whether it has a host mask -/
def fromString (sLine : CString) : CAutoVoiceUser × Bool :=
  let u : CAutoVoiceUser := {
    m_sUsername := sLine.token 0 false (ch '\t') false
    m_sHostmask := sLine.token 1 false (ch '\t') false
    m_ssChans := .ofList ((sLine.token 2 false (ch '\t') false).split (ch ' ') true) }
  (u, u.m_sHostmask ≠ [])

end CAutoVoiceUser

/-- a channel that somebody joins, and whether ZNC has op or half-op there -/
structure CChan where
  sName : CString
  named : sName.cStr ≠ []
  bOp : Bool
  bHalfOp : Bool

structure CAutoVoiceMod where
  sArgs : CString
  m_msUsers : OrdMap CString CAutoVoiceUser
  m_mssRegistry : MCString
  said : List CString

/-- the commands, each with its line -/
inductive Command where
  | addUser (sLine : CString)
  | delUser (sLine : CString)
  | addChans (sLine : CString)
  | delChans (sLine : CString)

namespace CAutoVoiceMod

def putModule (m : CAutoVoiceMod) (sLine : CString) : CAutoVoiceMod := { m with said := sLine :: m.said }

def setNV (m : CAutoVoiceMod) (sName sValue : CString) : CAutoVoiceMod :=
  { m with m_mssRegistry := m.m_mssRegistry.insert sName sValue }

def delNV (m : CAutoVoiceMod) (sName : CString) : CAutoVoiceMod :=
  { m with m_mssRegistry := m.m_mssRegistry.erase sName }

def findUser (m : CAutoVoiceMod) (sUser : CString) : Option CAutoVoiceUser := m.m_msUsers.find sUser.asLower

def delUser (m : CAutoVoiceMod) (sUser : CString) : CAutoVoiceMod :=
  match m.m_msUsers.find sUser.asLower with
  | none => m.putModule (lit "No such user")
  | some _ =>
    { m with m_msUsers := m.m_msUsers.erase sUser.asLower }.putModule (lit "User " ++ sUser ++ lit " removed")

/-- `AddUser`: the new user, if there is one -/
def addUser (m : CAutoVoiceMod) (sUser sHost sChans : CString) : CAutoVoiceMod × Option CAutoVoiceUser :=
  if (m.m_msUsers.find sUser).isSome then (m.putModule (lit "That user already exists"), none)
  else
    let pUser := CAutoVoiceUser.new sUser sHost sChans
    ({ m with m_msUsers := m.m_msUsers.insert sUser.asLower pUser }.putModule
      (lit "User " ++ sUser ++ lit " added with hostmask " ++ sHost), some pUser)

def onAddUserCommand (m : CAutoVoiceMod) (sLine : CString) : CAutoVoiceMod :=
  let sUser := sLine.token 1 false (ch ' ') false
  let sHost := sLine.token 2 false (ch ' ') false
  if sHost = [] then m.putModule (lit "Usage: AddUser <user> <hostmask> [channels]")
  else
    match m.addUser sUser sHost (sLine.token 3 true (ch ' ') false) with
    | (m, none) => m
    | (m, some pUser) => m.setNV sUser pUser.toString

def onDelUserCommand (m : CAutoVoiceMod) (sLine : CString) : CAutoVoiceMod :=
  let sUser := sLine.token 1 false (ch ' ') false
  if sUser = [] then m.putModule (lit "Usage: DelUser <user>") else (m.delUser sUser).delNV sUser

/-- AddChans and DelChans: the user is changed, and saved under its name -/
def changeUser (m : CAutoVoiceMod) (sLine sUsage sDone : CString) (f : CAutoVoiceUser → CString → CAutoVoiceUser) :
    CAutoVoiceMod :=
  let sUser := sLine.token 1 false (ch ' ') false
  let sChans := sLine.token 2 true (ch ' ') false
  if sChans = [] then m.putModule sUsage
  else
    match m.findUser sUser with
    | none => m.putModule (lit "No such user")
    | some pUser =>
      let pUser := f pUser sChans
      ({ m with m_msUsers := m.m_msUsers.insert sUser.asLower pUser }.putModule (sDone ++ pUser.m_sUsername)).setNV
        pUser.m_sUsername pUser.toString

def onAddChansCommand (m : CAutoVoiceMod) (sLine : CString) : CAutoVoiceMod :=
  m.changeUser sLine (lit "Usage: AddChans <user> <channel> [channel] ...") (lit "Channel(s) added to user ")
    CAutoVoiceUser.addChans

def onDelChansCommand (m : CAutoVoiceMod) (sLine : CString) : CAutoVoiceMod :=
  m.changeUser sLine (lit "Usage: DelChans <user> <channel> [channel] ...") (lit "Channel(s) Removed from user ")
    CAutoVoiceUser.delChans

def step (m : CAutoVoiceMod) : Command → CAutoVoiceMod
  | .addUser sLine => m.onAddUserCommand sLine
  | .delUser sLine => m.onDelUserCommand sLine
  | .addChans sLine => m.onAddChansCommand sLine
  | .delChans sLine => m.onDelChansCommand sLine

/-- the body of the loop of `OnLoad` over the registry -/
def loadEntry (m_msUsers : OrdMap CString CAutoVoiceUser) (it : CString × CString) : OrdMap CString CAutoVoiceUser :=
  let (pUser, bOk) := CAutoVoiceUser.fromString it.2
  if !bOk || (m_msUsers.find pUser.m_sUsername.asLower).isSome then m_msUsers
  else m_msUsers.insert pUser.m_sUsername.asLower pUser

/-- `OnLoad` with a registry; the counter of the arguments stays 0 -/
def onLoad (sArgs : CString) (m_mssRegistry : MCString) : CAutoVoiceMod :=
  let m : CAutoVoiceMod := ⟨sArgs, .empty, m_mssRegistry, []⟩
  let m := (sArgs.split (ch ' ') false).foldl (fun m sChan => (m.addUser (lit "Args0") (lit "*") sChan).1) m
  { m with m_msUsers := m_mssRegistry.entries.foldl loadEntry m.m_msUsers }

/-- the module is unloaded and loaded: the registry is written and read -/
def reload (m : CAutoVoiceMod) : CAutoVoiceMod :=
  onLoad m.sArgs (Registry.readFromDisk Registry.defaultFilter (Registry.writeToDisk Registry.defaultFilter m.m_mssRegistry).2).2

/-- the loop of `OnJoin`, and that of `FindUserByHost` -/
def matchesUser (m : CAutoVoiceMod) (sHostmask sChan : CString) : Bool :=
  m.m_msUsers.entries.any fun it => it.2.hostMatches sHostmask && it.2.channelMatches sChan

/-- `OnJoin`: the line for the server, if there is one -/
def onJoin (m : CAutoVoiceMod) (sNick sHostmask : CString) (Channel : CChan) : Option CString :=
  if Channel.bOp || Channel.bHalfOp then
    if m.matchesUser sHostmask Channel.sName then some (lit "MODE " ++ Channel.sName ++ lit " +v " ++ sNick) else none
  else none

end CAutoVoiceMod

/-! ## The users that should be there -/

abbrev Stored : Type := OrdMap CString CAutoVoiceUser

namespace Stored

/-- AddChans and DelChans -/
def change (G : Stored) (sLine : CString) (f : CAutoVoiceUser → CString → CAutoVoiceUser) : Stored :=
  let sUser := sLine.token 1 false (ch ' ') false
  let sChans := sLine.token 2 true (ch ' ') false
  if sChans = [] then G
  else
    match G.find sUser.asLower with
    | none => G
    | some u => G.insert sUser.asLower (f u sChans)

def step (G : Stored) : Command → Stored
  | .addUser sLine =>
    let sUser := sLine.token 1 false (ch ' ') false
    let sHost := sLine.token 2 false (ch ' ') false
    if sHost = [] then G
    else if (G.find sUser.asLower).isSome then G
    else G.insert sUser.asLower (.new sUser sHost (sLine.token 3 true (ch ' ') false))
  | .delUser sLine =>
    let sUser := sLine.token 1 false (ch ' ') false
    if sUser = [] then G else G.erase sUser.asLower
  | .addChans sLine => G.change sLine CAutoVoiceUser.addChans
  | .delChans sLine => G.change sLine CAutoVoiceUser.delChans

/-- a stored user, or an argument of the module, is for who joins -/
def Voiced (G : Stored) (sArgs sHostmask sChan : CString) : Prop :=
  (∃ sArg ∈ sArgs.split (ch ' ') false, wildCmpNoCase sArg sChan = true) ∨
    ∃ k u, G.find k = some u ∧ u.hostMatches sHostmask = true ∧ u.channelMatches sChan = true

end Stored

/-- the module, and the users that should be there -/
structure Session where
  mod : CAutoVoiceMod
  stored : Stored

def Session.step (s : Session) (c : Command) : Session := ⟨s.mod.step c, s.stored.step c⟩

/-- the module is loaded with its arguments and an empty registry -/
def Session.start (sArgs : CString) : Session := ⟨.onLoad sArgs .empty, .empty⟩

/-- who joins a channel gets a voice exactly if ZNC may give it, and a user or an argument is for it; and a reload decides the same -/
structure Good (s : Session) : Prop where
  voice : ∀ sNick sHostmask Channel,
    s.mod.onJoin sNick sHostmask Channel = some (lit "MODE " ++ Channel.sName ++ lit " +v " ++ sNick) ↔
      (Channel.bOp || Channel.bHalfOp) = true ∧ s.stored.Voiced s.mod.sArgs sHostmask Channel.sName
  reload : ∀ sNick sHostmask Channel, s.mod.reload.onJoin sNick sHostmask Channel = s.mod.onJoin sNick sHostmask Channel

/-- an AddUser for a name that is there changes nothing -/
def Kept (s : Session) : Command → Prop
  | .addUser sLine => (s.stored.find (sLine.token 1 false (ch ' ') false).asLower).isSome →
      (s.mod.onAddUserCommand sLine).m_msUsers = s.mod.m_msUsers ∧
        (s.mod.onAddUserCommand sLine).m_mssRegistry = s.mod.m_mssRegistry
  | _ => True

/-- all arguments are the same channel -/
def OneArg (sArgs : CString) : Prop :=
  ∀ sArg ∈ sArgs.split (ch ' ') false, ∀ sOther ∈ sArgs.split (ch ' ') false, sArg.asLower = sOther.asLower

/-- no name of the user of the arguments, if there are some -/
def NotArg (sArgs sUser : CString) : Prop := sArgs.split (ch ' ') false ≠ [] → sUser.asLower ≠ lit "args0"

namespace CAutoVoiceUser

/-- the words of the user come from `Split` -/
def Split (u : CAutoVoiceUser) : Prop := ∀ w ∈ u.m_ssChans, ch ' ' ∉ w ∧ 0 ∉ w

/-- no tabs are in the fields of the line -/
structure Fits (u : CAutoVoiceUser) : Prop where
  name : u.m_sUsername ≠ [] ∧ ch '\t' ∉ u.m_sUsername
  host : u.m_sHostmask ≠ [] ∧ ch '\t' ∉ u.m_sHostmask
  chans : ∀ w ∈ u.m_ssChans, ch '\t' ∉ w

end CAutoVoiceUser

/-- what the commands take: the user of the arguments is not named; who is added is new, or named in small letters; who is removed
is named as it was added; and what is saved has no tabs -/
def Meets (s : Session) : Command → Prop
  | .addUser sLine =>
    let sUser := sLine.token 1 false (ch ' ') false
    let sHost := sLine.token 2 false (ch ' ') false
    sHost ≠ [] → NotArg s.mod.sArgs sUser ∧ (s.mod.m_msUsers.find sUser = none →
      s.mod.findUser sUser = none ∧ (CAutoVoiceUser.new sUser sHost (sLine.token 3 true (ch ' ') false)).Fits)
  | .delUser sLine =>
    let sUser := sLine.token 1 false (ch ' ') false
    sUser ≠ [] → NotArg s.mod.sArgs sUser ∧ ∀ u ∈ s.mod.findUser sUser, u.m_sUsername = sUser
  | .addChans sLine =>
    let sUser := sLine.token 1 false (ch ' ') false
    let sChans := sLine.token 2 true (ch ' ') false
    sChans ≠ [] → NotArg s.mod.sArgs sUser ∧ ∀ u ∈ s.mod.findUser sUser, (u.addChans sChans).Fits
  | .delChans sLine =>
    let sUser := sLine.token 1 false (ch ' ') false
    let sChans := sLine.token 2 true (ch ' ') false
    sChans ≠ [] → NotArg s.mod.sArgs sUser ∧ ∀ u ∈ s.mod.findUser sUser, (u.delChans sChans).Fits

instance (sArgs : CString) : Decidable (OneArg sArgs) :=
  inferInstanceAs (Decidable (∀ sArg ∈ sArgs.split (ch ' ') false, ∀ sOther ∈ sArgs.split (ch ' ') false,
    sArg.asLower = sOther.asLower))

instance (sArgs sUser : CString) : Decidable (NotArg sArgs sUser) :=
  inferInstanceAs (Decidable (sArgs.split (ch ' ') false ≠ [] → sUser.asLower ≠ lit "args0"))

instance (u : CAutoVoiceUser) : Decidable u.Fits :=
  decidable_of_iff ((u.m_sUsername ≠ [] ∧ ch '\t' ∉ u.m_sUsername) ∧ (u.m_sHostmask ≠ [] ∧ ch '\t' ∉ u.m_sHostmask) ∧
    ∀ w ∈ u.m_ssChans.toList, ch '\t' ∉ w) ⟨fun h => ⟨h.1, h.2.1, h.2.2⟩, fun h => ⟨h.name, h.host, h.chans⟩⟩

instance (s : Session) : (c : Command) → Decidable (Meets s c)
  | .addUser _ => inferInstanceAs (Decidable (_ → _ ∧ (_ → _ ∧ _)))
  | .delUser _ => inferInstanceAs (Decidable (_ → _ ∧ _))
  | .addChans _ => inferInstanceAs (Decidable (_ → _ ∧ _))
  | .delChans _ => inferInstanceAs (Decidable (_ → _ ∧ _))

/-! ## A user and its line -/

namespace CAutoVoiceUser

variable {u : CAutoVoiceUser}

/-- the user as it is read back: without the empty channel word -/
def reread (u : CAutoVoiceUser) : CAutoVoiceUser := { u with m_ssChans := u.m_ssChans.erase [] }

theorem foldl_joinChans {sRet : CString} (hne : sRet ≠ []) {ws : VCString} (hws : ∀ w ∈ ws, w ≠ []) :
    ws.foldl joinChans sRet = sRet ++ ws.flatMap (lit " " ++ ·) := by
  induction ws generalizing sRet with
  | nil => simp
  | cons w ws ih =>
    have hone : joinChans sRet w = sRet ++ lit " " ++ w := by rw [joinChans, if_pos hne]
    rw [foldl_cons, hone, ih (append_ne_nil_of_right_ne_nil _ (hws w mem_cons_self))
      fun v hv => hws v (mem_cons_of_mem w hv), flatMap_cons, append_assoc,
        append_assoc, append_assoc]

theorem joinChans_words {ws : VCString} (hws : ∀ w ∈ ws, w ≠ []) : ws.foldl joinChans [] = join (lit " ") ws := by
  cases ws with
  | nil => rfl
  | cons w ws =>
    have hone : joinChans [] w = w := by simp [joinChans]
    rw [foldl_cons, hone, foldl_joinChans (hws w mem_cons_self) fun v hv => hws v (mem_cons_of_mem w hv), join_cons]

theorem getChannels_eq (u : CAutoVoiceUser) : u.getChannels = join (lit " ") (u.m_ssChans.erase []).toList := by
  have hsorted : u.m_ssChans.toList.Pairwise (· < ·) := pairwise_map.2 u.m_ssChans.map.sorted
  have herase : (u.m_ssChans.erase []).toList = u.m_ssChans.toList.filter (· ≠ []) := by
    rw [OrdSet.erase, OrdSet.toList, OrdMap.keys, OrdMap.erase, OrdSet.toList, OrdMap.keys, filter_map]
    exact congrArg (List.map Prod.fst) (filter_congr fun e _ => by simp)
  have hdrop : u.m_ssChans.toList.foldl joinChans [] = (u.m_ssChans.toList.filter (· ≠ [])).foldl joinChans [] := by
    cases hlist : u.m_ssChans.toList with
    | nil => rfl
    | cons w ws =>
      rw [hlist] at hsorted
      have hws : ∀ v ∈ ws, v ≠ [] := by
        rintro v hv rfl
        exact not_lt_nil w ((pairwise_cons.1 hsorted).1 [] hv)
      have hkeep : ws.filter (· ≠ []) = ws := filter_eq_self.2 fun v hv => by simp [hws v hv]
      by_cases hw : w = []
      · rw [foldl_cons, hw, filter_cons_of_neg (by simp), hkeep]
        rfl
      · rw [filter_cons_of_pos (by simp [hw]), hkeep]
  rw [getChannels, hdrop, herase, joinChans_words fun w hw => by simpa using (mem_filter.1 hw).2]

theorem mem_reread {w : CString} : w ∈ u.reread.m_ssChans ↔ w ≠ [] ∧ w ∈ u.m_ssChans := mem_erase _ _ _

theorem fromString_toString (hsplit : u.Split) (hfits : u.Fits) : fromString u.toString = (u.reread, true) := by
  have hwords : ∀ w ∈ (u.m_ssChans.erase []).toList, ch ' ' ∉ w ∧ 0 ∉ w := fun w hw =>
    hsplit w (mem_reread.1 ((mem_toList _ _).1 hw)).2
  have htab : ch '\t' ∉ u.getChannels := by
    rw [getChannels_eq]
    refine not_mem_join (by decide) fun w hw => ?_
    exact hfits.chans w (mem_reread.1 ((mem_toList _ _).1 hw)).2
  have hline : u.toString = u.m_sUsername ++ ch '\t' :: (u.m_sHostmask ++ ch '\t' :: u.getChannels) := by
    simp [toString, lit, ch]
  have hfields : Words.fields (ch '\t') u.toString =
      u.m_sUsername :: u.m_sHostmask :: if u.getChannels = [] then [] else [u.getChannels] := by
    rw [hline, Words.fields_append hfits.name.2, Words.fields_append hfits.host.2, Words.fields_of_not_mem htab,
      if_neg hfits.name.1, if_neg hfits.host.1]
    rfl
  have hchans : OrdSet.ofList ((u.toString.token 2 false (ch '\t') false).split (ch ' ') true) =
    u.m_ssChans.erase [] := by
    have htoken : u.toString.token 2 false (ch '\t') false = u.getChannels := by
      rw [token_eq_fields, hfields]
      split_ifs with hempty
      · rw [hempty]
        rfl
      · rfl
    rw [htoken, getChannels_eq]
    by_cases hempty : join (lit " ") (u.m_ssChans.erase []).toList = []
    · have hnone : (u.m_ssChans.erase []).toList = [] := by
        cases hlist : (u.m_ssChans.erase []).toList with
        | nil => rfl
        | cons w ws =>
          have hw : w ∈ u.m_ssChans.erase [] := by
            rw [← mem_toList, hlist]
            exact mem_cons_self
          rw [hlist, join_cons] at hempty
          exact absurd (append_eq_nil_iff.1 hempty).1 ((mem_erase _ _ _).1 hw).1
      rw [hnone]
      apply ext_mem
      intro w
      rw [← mem_toList (u.m_ssChans.erase []), hnone]
      exact iff_of_false (fun hw => absurd ((mem_ofList _ _).1 hw) not_mem_nil) not_mem_nil
    · exact AutoOp.split_set (by decide) (fun w hw => hwords w hw) hempty
  rw [fromString, hchans, token_eq_fields, token_eq_fields, hfields]
  simp [reread, hfits.host.1]

theorem Split.addChans (h : u.Split) (sChans : CString) : (u.addChans sChans).Split := by
  intro w hw
  rw [CAutoVoiceUser.addChans, ← foldl_map] at hw
  rcases (mem_foldl_insert _ _ _).1 hw with hw | hw
  · obtain ⟨v, hv, rfl⟩ := mem_map.1 hw
    obtain ⟨hspace, hnul, -⟩ := mem_split hv
    exact ⟨mt (mem_asLower (by decide)).1 hspace, mt (mem_asLower (by decide)).1 hnul⟩
  · exact h w hw

theorem Split.delChans (h : u.Split) (sChans : CString) : (u.delChans sChans).Split := by
  intro w hw
  rw [CAutoVoiceUser.delChans, ← foldl_map] at hw
  exact h w (AutoOp.CAutoOpUser.mem_foldl_erase hw)

theorem split_new (sUsername sHostmask sChannels : CString) : (new sUsername sHostmask sChannels).Split :=
  Split.addChans (fun w hw => absurd hw (not_mem_empty w)) sChannels

/-! ## Matching -/

theorem channelMatches_iff (sChan : CString) :
    u.channelMatches sChan = true ↔ ∃ w ∈ u.m_ssChans, wildCmpNoCase w sChan.asLower = true := by
  rw [channelMatches, any_eq_true]
  rfl

theorem reread_matches {sChan : CString} (hne : sChan.cStr ≠ []) :
    u.reread.channelMatches sChan = u.channelMatches sChan := by
  have hempty : wildCmpNoCase [] sChan.asLower = false := by
    have hlower : sChan.asLower.asLower.cStr ≠ [] := by
      rw [asLower_asLower, asLower_cStr, asLower, ne_eq, map_eq_nil_iff]
      exact hne
    rw [AutoOp.wildCmpNoCase, wildCmp]
    cases hstr : sChan.asLower.asLower.cStr with
    | nil => exact absurd hstr hlower
    | cons c s => rfl
  rw [Bool.eq_iff_iff, channelMatches_iff, channelMatches_iff]
  constructor
  · rintro ⟨w, hw, hmatch⟩
    exact ⟨w, (mem_reread.1 hw).2, hmatch⟩
  · rintro ⟨w, hw, hmatch⟩
    refine ⟨w, mem_reread.2 ⟨?_, hw⟩, hmatch⟩
    rintro rfl
    rw [hempty] at hmatch
    exact Bool.false_ne_true hmatch

end CAutoVoiceUser

/-! ## Loading -/

open CAutoVoiceMod

/-- the user of the arguments: the last one counts -/
def argUser (vsChans : VCString) : CAutoVoiceUser := .new (lit "Args0") (lit "*") (vsChans.getLastD [])

theorem addArgs_spec (vsChans : VCString) (m : CAutoVoiceMod) (hnone : m.m_msUsers.find (lit "Args0") = none) :
    let m' := vsChans.foldl (fun m sChan => (m.addUser (lit "Args0") (lit "*") sChan).1) m
    m'.sArgs = m.sArgs ∧ m'.m_mssRegistry = m.m_mssRegistry ∧ ∀ k, m'.m_msUsers.find k =
      if k = lit "args0" ∧ vsChans ≠ [] then some (argUser vsChans) else m.m_msUsers.find k := by
  induction vsChans using List.reverseRecOn with
  | nil => exact ⟨rfl, rfl, fun k => by simp⟩
  | append_singleton vsChans sChan ih =>
    obtain ⟨hargs, hregistry, hfind⟩ := ih
    dsimp only at hargs hregistry hfind ⊢
    rw [foldl_append, foldl_cons, foldl_nil]
    set m' := vsChans.foldl (fun m sChan => (m.addUser (lit "Args0") (lit "*") sChan).1) m with hm'
    have hkey : ¬ (lit "Args0" = lit "args0" ∧ vsChans ≠ []) := fun h => absurd h.1 (by decide)
    have hfree : (m'.m_msUsers.find (lit "Args0")).isSome = false := by rw [hfind, if_neg hkey, hnone]; rfl
    have hadd : (m'.addUser (lit "Args0") (lit "*") sChan).1.m_msUsers =
        m'.m_msUsers.insert (lit "args0") (argUser (vsChans ++ [sChan])) := by
      rw [addUser, if_neg (by simp [hfree]), argUser, getLastD_concat]
      rfl
    refine ⟨?_, ?_, fun k => ?_⟩
    · rw [addUser, if_neg (by simp [hfree])]
      exact hargs
    · rw [addUser, if_neg (by simp [hfree])]
      exact hregistry
    · rw [hadd, find_insert, hfind]
      by_cases hk : k = lit "args0"
      · simp [hk]
      · simp [hk]

/-- the user of a line, under its key -/
def entryOf (it : CString × CString) : Option (CString × CAutoVoiceUser) :=
  if (CAutoVoiceUser.fromString it.2).2 then
    some ((CAutoVoiceUser.fromString it.2).1.m_sUsername.asLower, (CAutoVoiceUser.fromString it.2).1)
  else none

theorem loadEntry_eq (m_msUsers : OrdMap CString CAutoVoiceUser) (it : CString × CString) :
    loadEntry m_msUsers it = (entryOf it).elim m_msUsers fun p => m_msUsers.insertNew p.1 p.2 := by
  rw [loadEntry, entryOf]
  dsimp only
  by_cases hok : (CAutoVoiceUser.fromString it.2).2 = true
  · rw [if_pos hok, Option.elim_some, OrdMap.insertNew, hok]
    rfl
  · rw [if_neg hok, Option.elim_none, if_pos (by simp [hok])]

theorem find_onLoad (sArgs : CString) (m_mssRegistry : MCString) (k : CString) :
    (onLoad sArgs m_mssRegistry).m_msUsers.find k =
      (if k = lit "args0" ∧ sArgs.split (ch ' ') false ≠ [] then some (argUser (sArgs.split (ch ' ') false)) else none).or
        (m_mssRegistry.entries.findSome? fun it => (entryOf it).bind fun p => if k = p.1 then some p.2 else none) := by
  have hload : loadEntry = fun m_msUsers it => (entryOf it).elim m_msUsers fun p => m_msUsers.insertNew p.1 p.2 := by
    funext m_msUsers it
    exact loadEntry_eq m_msUsers it
  obtain ⟨-, -, hfind⟩ := addArgs_spec (sArgs.split (ch ' ') false) ⟨sArgs, .empty, m_mssRegistry, []⟩ rfl
  rw [onLoad]
  dsimp only at hfind ⊢
  rw [hload, find_foldl_insertNew, hfind, find_empty]
  refine congrArg (Option.or _)
    (congrArg (List.findSome? · _) (funext fun it => congrArg (Option.bind _) (funext fun p => ?_)))
  by_cases hk : k = p.1
  · rw [if_pos hk, if_pos hk]
  · rw [if_neg hk, if_neg hk]

/-! ## What a command keeps -/

variable {s : Session}

/-- the table has the stored users and that of the arguments, and every stored user is saved under its name -/
structure Inv (s : Session) : Prop where
  one : OneArg s.mod.sArgs
  stored : ∀ {k u}, s.stored.find k = some u → u.m_sUsername.asLower = k ∧
    s.mod.m_mssRegistry.find u.m_sUsername = some u.toString ∧ u.Split ∧ u.Fits
  entries : ∀ {k v}, s.mod.m_mssRegistry.find k = some v →
    ∃ u, s.stored.find k.asLower = some u ∧ u.m_sUsername = k ∧ v = u.toString
  free : s.mod.sArgs.split (ch ' ') false ≠ [] → s.stored.find (lit "args0") = none
  users : ∀ k, s.mod.m_msUsers.find k =
    if k = lit "args0" ∧ s.mod.sArgs.split (ch ' ') false ≠ [] then some (argUser (s.mod.sArgs.split (ch ' ') false))
    else s.stored.find k

theorem Inv.find_stored (h : Inv s) {sUser : CString} (hnot : NotArg s.mod.sArgs sUser) :
    s.mod.findUser sUser = s.stored.find sUser.asLower := by
  rw [findUser, h.users, if_neg fun hboth => hnot hboth.2 hboth.1]

theorem Inv.save (h : Inv s) {key : CString} {u : CAutoVoiceUser}
    (hkey : u.m_sUsername.asLower = key) (hsplit : u.Split)
    (hfits : u.Fits) (hnot : s.mod.sArgs.split (ch ' ') false ≠ [] → key ≠ lit "args0")
    (hold : ∀ n v, s.mod.m_mssRegistry.find n = some v → n.asLower = key → n = u.m_sUsername) (said : List CString) :
    Inv ⟨⟨s.mod.sArgs, s.mod.m_msUsers.insert key u, s.mod.m_mssRegistry.insert u.m_sUsername u.toString, said⟩,
      s.stored.insert key u⟩ := by
  constructor
  · exact h.one
  · intro k v hfind
    rw [find_insert] at hfind
    split_ifs at hfind with hk
    · obtain rfl := Option.some.inj hfind
      exact ⟨hkey.trans hk.symm, by rw [find_insert, if_pos rfl], hsplit, hfits⟩
    · obtain ⟨hname, hsaved, hmore⟩ := h.stored hfind
      have hne : v.m_sUsername ≠ u.m_sUsername := fun heq => hk (by rw [← hname, heq, hkey])
      exact ⟨hname, by rw [find_insert, if_neg hne, hsaved], hmore⟩
  · intro k v hfind
    rw [find_insert] at hfind
    rw [find_insert]
    split_ifs at hfind with hk
    · exact ⟨u, by rw [if_pos (by rw [hk, hkey])], hk.symm, (Option.some.inj hfind).symm⟩
    · have hne : k.asLower ≠ key := fun heq => hk (hold k v hfind heq)
      rw [if_neg hne]
      exact h.entries hfind
  · intro hwords
    rw [find_insert, if_neg (Ne.symm (hnot hwords))]
    exact h.free hwords
  · intro k
    rw [find_insert, find_insert, h.users]
    by_cases hk : k = key
    · subst hk
      rw [if_pos rfl, if_pos rfl, if_neg fun hboth => hnot hboth.2 hboth.1]
    · rw [if_neg hk, if_neg hk]

theorem Inv.remove (h : Inv s) {sUser : CString} (hnot : NotArg s.mod.sArgs sUser)
    (hname : ∀ u, s.stored.find sUser.asLower = some u → u.m_sUsername = sUser) (said : List CString) :
    Inv ⟨⟨s.mod.sArgs, s.mod.m_msUsers.erase sUser.asLower, s.mod.m_mssRegistry.erase sUser, said⟩,
      s.stored.erase sUser.asLower⟩ := by
  constructor
  · exact h.one
  · intro k v hfind
    rw [find_erase] at hfind
    split_ifs at hfind with hk
    obtain ⟨hkey, hsaved, hmore⟩ := h.stored hfind
    have hne : v.m_sUsername ≠ sUser := fun heq => hk (by rw [← hkey, heq])
    exact ⟨hkey, by rw [find_erase, if_neg hne, hsaved], hmore⟩
  · intro k v hfind
    rw [find_erase] at hfind
    split_ifs at hfind with hk
    obtain ⟨u, hstored, hu, hv⟩ := h.entries hfind
    have hne : k.asLower ≠ sUser.asLower := fun heq => hk (by rw [← hu, hname u (heq ▸ hstored)])
    exact ⟨u, by rw [find_erase, if_neg hne, hstored], hu, hv⟩
  · intro hwords
    rw [find_erase, h.free hwords, ite_self]
  · intro k
    rw [find_erase, find_erase, h.users]
    by_cases hk : k = sUser.asLower
    · subst hk
      rw [if_pos rfl, if_pos rfl, if_neg fun hboth => hnot hboth.2 hboth.1]
    · rw [if_neg hk, if_neg hk]

theorem Inv.said (h : Inv s) (said : List CString) :
    Inv ⟨⟨s.mod.sArgs, s.mod.m_msUsers, s.mod.m_mssRegistry, said⟩, s.stored⟩ :=
      ⟨h.one, h.stored, h.entries, h.free, h.users⟩

theorem Inv.change (h : Inv s) {f : CAutoVoiceUser → CString → CAutoVoiceUser}
    (hname : ∀ u sChans, (f u sChans).m_sUsername = u.m_sUsername) (hsplit : ∀ u sChans, u.Split → (f u sChans).Split)
    (sLine sUsage sDone : CString)
    (hmeets : sLine.token 2 true (ch ' ') false ≠ [] → NotArg s.mod.sArgs (sLine.token 1 false (ch ' ') false) ∧
      ∀ u ∈ s.mod.findUser (sLine.token 1 false (ch ' ') false), (f u (sLine.token 2 true (ch ' ') false)).Fits) :
    Inv ⟨s.mod.changeUser sLine sUsage sDone f, s.stored.change sLine f⟩ := by
  unfold changeUser Stored.change
  by_cases hchans : sLine.token 2 true (ch ' ') false = []
  · rw [if_pos hchans, if_pos hchans]
    exact h.said _
  · obtain ⟨hnot, hfits⟩ := hmeets hchans
    have hstored := h.find_stored hnot
    rw [if_neg hchans, if_neg hchans, ← hstored]
    cases hfind : s.mod.findUser (sLine.token 1 false (ch ' ') false) with
    | none => exact h.said _
    | some u =>
      obtain ⟨hkey, hsaved, husplit, -⟩ := h.stored (hstored.symm.trans hfind)
      refine h.save (by rw [hname, hkey]) (hsplit u _ husplit) (hfits u hfind) hnot (fun n v hn hlower => ?_) _
      obtain ⟨u', hu', hname', -⟩ := h.entries hn
      rw [hlower, ← hstored, hfind] at hu'
      rw [← hname', hname, Option.some.inj hu']

theorem step_inv (h : Inv s) {c : Command} (hmeets : Meets s c) : Inv (s.step c) := by
  cases c with
  | addUser sLine =>
    rw [Session.step, CAutoVoiceMod.step, Stored.step, onAddUserCommand]
    by_cases hhost : sLine.token 2 false (ch ' ') false = []
    · rw [if_pos hhost, if_pos hhost]
      exact h.said _
    · obtain ⟨hnot, hnew⟩ := hmeets hhost
      rw [if_neg hhost, if_neg hhost, addUser]
      cases hfind : s.mod.m_msUsers.find (sLine.token 1 false (ch ' ') false) with
      | some u =>
        -- the name is a key of the table
        have hstored : s.stored.find (sLine.token 1 false (ch ' ') false) = some u := by
          have husers := h.users (sLine.token 1 false (ch ' ') false)
          rw [hfind] at husers
          split_ifs at husers with hboth
          · exact absurd (by rw [hboth.1]; decide) (hnot hboth.2)
          · exact husers.symm
        obtain ⟨hkey, -⟩ := h.stored hstored
        have hsome : (s.stored.find (sLine.token 1 false (ch ' ') false).asLower).isSome := by
          rw [← hkey, asLower_asLower, hkey, hstored]
          rfl
        rw [if_pos hsome]
        exact h.said _
      | none =>
        obtain ⟨hfree, hfits⟩ := hnew hfind
        rw [h.find_stored hnot] at hfree
        rw [hfree]
        refine h.save rfl (CAutoVoiceUser.split_new _ _ _) hfits hnot (fun n v hn hlower => ?_) _
        obtain ⟨u', hu', -⟩ := h.entries hn
        rw [hlower] at hu'
        have hbad := hfree.symm.trans hu'
        cases hbad
  | delUser sLine =>
    rw [Session.step, CAutoVoiceMod.step, Stored.step, onDelUserCommand]
    by_cases hname : sLine.token 1 false (ch ' ') false = []
    · rw [if_pos hname, if_pos hname]
      exact h.said _
    · obtain ⟨hnot, hsame⟩ := hmeets hname
      rw [if_neg hname, if_neg hname]
      rw [h.find_stored hnot] at hsame
      have hremoved := h.remove hnot fun u hu => hsame u hu
      cases hfind : s.mod.m_msUsers.find (sLine.token 1 false (ch ' ') false).asLower with
      | none =>
        have herase : s.mod.m_msUsers.erase (sLine.token 1 false (ch ' ') false).asLower = s.mod.m_msUsers := by
          apply ext_find
          intro k
          rw [find_erase]
          split_ifs with hk
          · rw [hk, hfind]
          · rfl
        rw [herase] at hremoved
        rw [CAutoVoiceMod.delUser, hfind]
        exact hremoved _
      | some u =>
        rw [CAutoVoiceMod.delUser, hfind]
        exact hremoved _
  | addChans sLine =>
    exact h.change (f := CAutoVoiceUser.addChans) (fun _ _ => rfl)
      (fun _ sChans hu => hu.addChans sChans) sLine _ _ hmeets
  | delChans sLine =>
    exact h.change (f := CAutoVoiceUser.delChans) (fun _ _ => rfl)
      (fun _ sChans hu => hu.delChans sChans) sLine _ _ hmeets

/-! ## Who gets a voice -/

theorem matchesUser_iff (m : CAutoVoiceMod) (sHostmask sChan : CString) : m.matchesUser sHostmask sChan = true ↔
    ∃ k u, m.m_msUsers.find k = some u ∧ u.hostMatches sHostmask = true ∧ u.channelMatches sChan = true := by
  rw [matchesUser, any_eq_true]
  constructor
  · rintro ⟨⟨k, u⟩, hmem, hboth⟩
    exact ⟨k, u, (mem_entries_iff _ _ _).1 hmem, by simpa using hboth⟩
  · rintro ⟨k, u, hfind, hboth⟩
    exact ⟨(k, u), (mem_entries_iff _ _ _).2 hfind, by simpa using hboth⟩

theorem argUser_matches {sArgs : CString} (hone : OneArg sArgs) (hne : sArgs.split (ch ' ') false ≠ [])
    (sHostmask sChan : CString) :
    (argUser (sArgs.split (ch ' ') false)).hostMatches sHostmask = true ∧
      ((argUser (sArgs.split (ch ' ') false)).channelMatches sChan = true ↔
        ∃ sArg ∈ sArgs.split (ch ' ') false, wildCmpNoCase sArg sChan = true) := by
  have hlast : (sArgs.split (ch ' ') false).getLastD [] ∈ sArgs.split (ch ' ') false := by
    rw [getLastD_eq_getLast?, getLast?_eq_some_getLast hne, Option.getD_some]
    exact getLast_mem hne
  obtain ⟨hspace, hnul, hword⟩ := mem_split hlast
  have hwords : ((sArgs.split (ch ' ') false).getLastD []).split (ch ' ') true =
    [(sArgs.split (ch ' ') false).getLastD []] := by
    have hws : ∀ w ∈ [(sArgs.split (ch ' ') false).getLastD []], ch ' ' ∉ w ∧ 0 ∉ w := fun w hw => by
      rw [mem_singleton.1 hw]
      exact ⟨hspace, hnul⟩
    have hjoin := AutoOp.split_join_words (by decide) hws (by simpa using hword rfl)
    rwa [join_cons, flatMap_nil, append_nil] at hjoin
  constructor
  · have hstar : ∀ s : CString, wildCmpNoCase (lit "*") s = true := by
      intro s
      have hwild : (lit "*").asLower.cStr = [ch '*'] := by decide
      rw [AutoOp.wildCmpNoCase, wildCmp, hwild]
      cases s.asLower.cStr with
      | nil => rfl
      | cons c p => rw [wildHead, if_pos rfl, wildLoop, if_pos rfl, if_pos rfl]
    exact hstar sHostmask
  · rw [CAutoVoiceUser.channelMatches_iff, argUser, CAutoVoiceUser.new, CAutoVoiceUser.addChans, hwords]
    have hlower : ∀ w s : CString, wildCmpNoCase w.asLower s.asLower = wildCmpNoCase w s := fun w s => by
      rw [AutoOp.wildCmpNoCase, AutoOp.wildCmpNoCase, asLower_asLower, asLower_asLower]
    constructor
    · rintro ⟨w, hw, hmatch⟩
      rcases (mem_insert _ _ _).1 hw with rfl | hw
      · rw [hlower] at hmatch
        exact ⟨_, hlast, hmatch⟩
      · exact absurd hw (not_mem_empty w)
    · rintro ⟨sArg, harg, hmatch⟩
      refine ⟨((sArgs.split (ch ' ') false).getLastD []).asLower, (mem_insert _ _ _).2 (.inl rfl), ?_⟩
      rw [hone _ hlast sArg harg, hlower]
      exact hmatch

theorem matches_iff (h : Inv s) {m : CAutoVoiceMod} (g : CAutoVoiceUser → CAutoVoiceUser)
    (hg : ∀ u sHostmask (Channel : CChan), (g u).hostMatches sHostmask = u.hostMatches sHostmask ∧
      (g u).channelMatches Channel.sName = u.channelMatches Channel.sName)
    (hfind : ∀ k, m.m_msUsers.find k =
      if k = lit "args0" ∧ s.mod.sArgs.split (ch ' ') false ≠ [] then some (argUser (s.mod.sArgs.split (ch ' ') false))
      else (s.stored.find k).map g) (sHostmask : CString) (Channel : CChan) :
    m.matchesUser sHostmask Channel.sName = true ↔ s.stored.Voiced s.mod.sArgs sHostmask Channel.sName := by
  rw [matchesUser_iff, Stored.Voiced]
  constructor
  · rintro ⟨k, u, hk, hhost, hchan⟩
    rw [hfind] at hk
    split_ifs at hk with hboth
    · obtain rfl := Option.some.inj hk
      exact .inl ((argUser_matches h.one hboth.2 sHostmask Channel.sName).2.1 hchan)
    · obtain ⟨u, hstored, rfl⟩ := Option.map_eq_some_iff.1 hk
      obtain ⟨hsameHost, hsameChan⟩ := hg u sHostmask Channel
      exact .inr ⟨k, u, hstored, hsameHost ▸ hhost, hsameChan ▸ hchan⟩
  · rintro (⟨sArg, harg, hmatch⟩ | ⟨k, u, hstored, hhost, hchan⟩)
    · have hne : s.mod.sArgs.split (ch ' ') false ≠ [] := ne_nil_of_mem harg
      obtain ⟨hhost, hchan⟩ := argUser_matches h.one hne sHostmask Channel.sName
      exact ⟨lit "args0", _, by rw [hfind, if_pos ⟨rfl, hne⟩], hhost, hchan.2 ⟨sArg, harg, hmatch⟩⟩
    · obtain ⟨hsameHost, hsameChan⟩ := hg u sHostmask Channel
      refine ⟨k, g u, ?_, hsameHost.trans hhost, hsameChan.trans hchan⟩
      rw [hfind, if_neg, hstored, Option.map_some]
      rintro ⟨rfl, hne⟩
      rw [h.free hne] at hstored
      cases hstored

theorem Inv.find_reload (h : Inv s) (k : CString) : s.mod.reload.m_msUsers.find k =
    if k = lit "args0" ∧ s.mod.sArgs.split (ch ' ') false ≠ [] then some (argUser (s.mod.sArgs.split (ch ' ') false))
    else (s.stored.find k).map CAutoVoiceUser.reread := by
  have hentry : ∀ n v, s.mod.m_mssRegistry.find n = some v → ∃ u, s.stored.find n.asLower = some u ∧ u.m_sUsername = n ∧
      entryOf (n, v) = some (n.asLower, u.reread) := by
    intro n v hn
    obtain ⟨u, hstored, rfl, rfl⟩ := h.entries hn
    obtain ⟨-, -, hsplit, hfits⟩ := h.stored hstored
    refine ⟨u, hstored, rfl, ?_⟩
    rw [entryOf, CAutoVoiceUser.fromString_toString hsplit hfits]
    rfl
  have hback : ((s.mod.m_mssRegistry.erase []).entries.findSome? fun it =>
      (entryOf it).bind fun p => if k = p.1 then some p.2 else none) = (s.stored.find k).map CAutoVoiceUser.reread := by
    cases hfind : s.stored.find k with
    | none =>
      rw [Option.map_none, findSome_entries_none_iff]
      intro n v hn
      rw [find_erase] at hn
      split_ifs at hn
      obtain ⟨u, hstored, -, hload⟩ := hentry n v hn
      rw [hload, Option.bind_some, if_neg]
      intro hk
      have hkey : k = n.asLower := hk
      rw [← hkey, hfind] at hstored
      cases hstored
    | some u =>
      obtain ⟨hkey, hsaved, -, hfits⟩ := h.stored hfind
      obtain ⟨u', hstored, -, hload⟩ := hentry _ _ hsaved
      rw [hkey, hfind] at hstored
      obtain rfl := Option.some.inj hstored
      rw [Option.map_some, findSome_entries_iff]
      refine ⟨u.m_sUsername, u.toString, ?_, ?_, fun n v hn hlt => ?_⟩
      · rw [find_erase, if_neg hfits.name.1, hsaved]
      · rw [hload, Option.bind_some, if_pos hkey.symm]
      · rw [find_erase] at hn
        split_ifs at hn
        obtain ⟨u', hstored', hname', hload'⟩ := hentry n v hn
        rw [hload', Option.bind_some, if_neg]
        intro hk
        have hkey' : k = n.asLower := hk
        rw [← hkey', hfind] at hstored'
        rw [← hname', ← Option.some.inj hstored'] at hlt
        exact absurd hlt (lt_irrefl _)
  rw [reload, (Registry.registry_round_trip _).2, find_onLoad, hback]
  split_ifs with hboth
  · rfl
  · exact Option.none_or

theorem onJoin_iff (m : CAutoVoiceMod) (sNick sHostmask : CString) (Channel : CChan) :
    m.onJoin sNick sHostmask Channel = some (lit "MODE " ++ Channel.sName ++ lit " +v " ++ sNick) ↔
      (Channel.bOp || Channel.bHalfOp) = true ∧ m.matchesUser sHostmask Channel.sName = true := by
  rw [onJoin]
  by_cases hop : (Channel.bOp || Channel.bHalfOp) = true
  · by_cases hmatch : m.matchesUser sHostmask Channel.sName = true
    · simp [hop, hmatch]
    · simp [hmatch]
  · simp [hop]

theorem good_of_inv (h : Inv s) : Good s := by
  have hnow := matches_iff h (m := s.mod) id (fun _ _ _ => ⟨rfl, rfl⟩) fun k => by
    rw [h.users, Option.map_id_fun, id_eq]
  have hback := matches_iff h (m := s.mod.reload) CAutoVoiceUser.reread
    (fun u _ Channel => ⟨rfl, CAutoVoiceUser.reread_matches Channel.named⟩) h.find_reload
  constructor
  · intro sNick sHostmask Channel
    rw [onJoin_iff, hnow]
  · intro sNick sHostmask Channel
    have hsame : s.mod.reload.matchesUser sHostmask Channel.sName = s.mod.matchesUser sHostmask Channel.sName :=
      Bool.eq_iff_iff.2 ((hback sHostmask Channel).trans (hnow sHostmask Channel).symm)
    rw [onJoin, onJoin, hsame]

/-! ## Runs -/

theorem step_kept (h : Inv s) {c : Command} (hmeets : Meets s c) : Kept s c := by
  cases c with
  | addUser sLine =>
    intro hstored
    rw [onAddUserCommand]
    by_cases hhost : sLine.token 2 false (ch ' ') false = []
    · rw [if_pos hhost]
      exact ⟨rfl, rfl⟩
    · obtain ⟨hnot, hnew⟩ := hmeets hhost
      rw [if_neg hhost, addUser]
      cases hfind : s.mod.m_msUsers.find (sLine.token 1 false (ch ' ') false) with
      | some u => exact ⟨rfl, rfl⟩
      | none =>
        have hfree := (hnew hfind).1
        rw [h.find_stored hnot] at hfree
        rw [hfree] at hstored
        cases hstored
  | delUser sLine => trivial
  | addChans sLine => trivial
  | delChans sLine => trivial

theorem inv_start {sArgs : CString} (hone : OneArg sArgs) : Inv (.start sArgs) := by
  obtain ⟨hargs, hregistry, -⟩ := addArgs_spec (sArgs.split (ch ' ') false) ⟨sArgs, .empty, .empty, []⟩ rfl
  have hsArgs : (Session.start sArgs).mod.sArgs = sArgs := hargs
  have hempty : (Session.start sArgs).mod.m_mssRegistry = .empty := hregistry
  constructor
  · rw [hsArgs]
    exact hone
  · intro k u hfind
    cases hfind
  · intro k v hfind
    rw [hempty] at hfind
    cases hfind
  · intro _
    rfl
  · intro k
    have husers : (Session.start sArgs).mod.m_msUsers.find k = _ := find_onLoad sArgs .empty k
    rw [husers, hsArgs]
    split_ifs with hboth
    · rfl
    · rfl

/-- **Who gets a voice** after every command of a run, if there is one argument at most and the commands meet their conditions. -/
theorem voice_run {sArgs : CString} (hone : OneArg sArgs) (cs : List Command)
    (hmeets : Runs.Steps Session.step Meets cs (.start sArgs)) :
    Runs.States Session.step Good cs (.start sArgs) ∧ Runs.Steps Session.step Kept cs (.start sArgs) := by
  have hinv : ∀ s c, Inv s → Meets s c → Inv (s.step c) := fun s c h hc => step_inv h hc
  have hstart := inv_start hone
  constructor
  · exact (Runs.states_of_inv hinv cs hstart hmeets).imp fun s => good_of_inv
  · exact Runs.steps_of_inv hinv (fun s c h hc => step_kept h hc) cs hstart hmeets

/-- bob is added, gets a channel under another spelling of the name, loses one, and is removed -/
theorem voice_run_bob :
    let cs : List Command := [.addUser (lit "AddUser bob bob!*@host #znc #chat"), .addChans (lit "AddChans BOB #Lean"),
      .addUser (lit "AddUser bob *"), .delChans (lit "DelChans bob #ZNC"), .delUser (lit "DelUser bob")]
    Runs.States Session.step Good cs (.start (lit "#help")) ∧ Runs.Steps Session.step Kept cs (.start (lit "#help")) :=
  voice_run (by decide) _ (by decide)

/-- **Of two arguments only the last counts**: who joins #a gets no voice, and no command was there. -/
theorem two_arguments :
    let s := Session.start (lit "#a #b")
    let Channel : CChan := ⟨lit "#a", by decide, true, false⟩
    s.mod.onJoin (lit "nick") (lit "nick!ident@host") Channel = none ∧
      s.stored.Voiced s.mod.sArgs (lit "nick!ident@host") Channel.sName ∧ ¬ Good s := by
  intro s Channel
  have hnone : s.mod.matchesUser (lit "nick!ident@host") (lit "#a") = false := by
    by_contra hsome
    obtain ⟨k, u, hfind, -, hchan⟩ := (matchesUser_iff _ _ _).1 (Bool.eq_true_of_not_eq_false hsome)
    obtain ⟨-, -, hargs⟩ := addArgs_spec ((lit "#a #b").split (ch ' ') false) ⟨lit "#a #b", .empty, .empty, []⟩ rfl
    have husers : s.mod.m_msUsers.find k = _ := hargs k
    rw [husers] at hfind
    split_ifs at hfind with hkey
    · obtain rfl := Option.some.inj hfind
      have hother : (argUser ((lit "#a #b").split (ch ' ') false)).channelMatches (lit "#a") = false := by decide
      rw [hother] at hchan
      exact Bool.false_ne_true hchan
    · cases hfind
  have hjoin : s.mod.onJoin (lit "nick") (lit "nick!ident@host") Channel = none := by
    rw [onJoin, if_pos (show (Channel.bOp || Channel.bHalfOp) = true from rfl), hnone, if_neg Bool.false_ne_true]
  have hvoiced : s.stored.Voiced s.mod.sArgs (lit "nick!ident@host") Channel.sName :=
    .inl ⟨lit "#a", by decide, by decide⟩
  refine ⟨hjoin, hvoiced, fun hgood => ?_⟩
  have hvoice := (hgood.voice (lit "nick") (lit "nick!ident@host") Channel).2 ⟨rfl, hvoiced⟩
  rw [hjoin] at hvoice
  exact Option.some_ne_none _ hvoice.symm

end ZNC.AutoVoice
