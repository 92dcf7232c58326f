/-
The users of autoop and the registry: what the commands of `modules/autoop.cpp` save, and what a restart loads.

The table of the users has the names in lower case for its keys, the registry has them as they were typed. A command changes both.

Model: the loop of `OnLoad` goes over the registry as it is read back from the disk. `said` has what `PutModule` said, the newest
first.

Results:
- `load_find`: what is loaded for a name, by the first entry of the registry for it;
- `saved_restart_iff`: after every command of a run a restart gives the users of the table exactly if each command meets `Meets`;
- `comes_back`: a user that was removed in other letters comes back.
-/
import ZNC.AutoOpUsers
import ZNC.Lib.Runs
import ZNC.Registry

namespace ZNC.AutoOpSaved

open CString Option OrdMap
open AutoOp (CAutoOpUser)

/-! ## Model -/

structure CAutoOpMod where
  m_msUsers : OrdMap CString CAutoOpUser
  m_mssRegistry : MCString
  said : List CString

/-- the commands, each with its line -/
inductive Command where
  | addUser (sLine : CString)
  | delUser (sLine : CString)
  | addChans (sLine : CString)
  | delChans (sLine : CString)
  | addMasks (sLine : CString)
  | delMasks (sLine : CString)

namespace CAutoOpMod

def putModule (m : CAutoOpMod) (sLine : CString) : CAutoOpMod := { m with said := sLine :: m.said }

def setNV (m : CAutoOpMod) (sName sValue : CString) : CAutoOpMod :=
  { m with m_mssRegistry := m.m_mssRegistry.insert sName sValue }

def delNV (m : CAutoOpMod) (sName : CString) : CAutoOpMod := { m with m_mssRegistry := m.m_mssRegistry.erase sName }

def findUser (m : CAutoOpMod) (sUser : CString) : Option CAutoOpUser := m.m_msUsers.find sUser.asLower

def delUser (m : CAutoOpMod) (sUser : CString) : CAutoOpMod :=
  match m.m_msUsers.find sUser.asLower with
  | none => m.putModule (lit "No such user")
  | some _ =>
    { m with m_msUsers := m.m_msUsers.erase sUser.asLower }.putModule (lit "User " ++ sUser ++ lit " removed")

/-- `AddUser`: the new user, if there is one -/
def addUser (m : CAutoOpMod) (sUser sKey sHosts sChans : CString) : CAutoOpMod × Option CAutoOpUser :=
  if (m.m_msUsers.find sUser).isSome then (m.putModule (lit "That user already exists"), none)
  else
    let pUser := CAutoOpUser.new sUser sKey sHosts sChans
    ({ m with m_msUsers := m.m_msUsers.insert sUser.asLower pUser }.putModule
      (lit "User " ++ sUser ++ lit " added with hostmask(s) " ++ sHosts), some pUser)

def onAddUserCommand (m : CAutoOpMod) (sLine : CString) : CAutoOpMod :=
  let sUser := sLine.token 1 false (ch ' ') false
  let sHost := sLine.token 2 false (ch ' ') false
  let sKey := sLine.token 3 false (ch ' ') false
  if sHost = [] then m.putModule (lit "Usage: AddUser <user> <hostmask>[,<hostmasks>...] <key> [channels]")
  else
    match m.addUser sUser sKey sHost (sLine.token 4 true (ch ' ') false) with
    | (m, none) => m
    | (m, some pUser) => m.setNV sUser pUser.toString

def onDelUserCommand (m : CAutoOpMod) (sLine : CString) : CAutoOpMod :=
  let sUser := sLine.token 1 false (ch ' ') false
  if sUser = [] then m.putModule (lit "Usage: DelUser <user>") else (m.delUser sUser).delNV sUser

/-- what AddChans, DelChans, AddMasks and DelMasks do with the user that they found: it is changed, and saved under its name -/
def saveUser (m : CAutoOpMod) (sUser : CString) (pUser : CAutoOpUser) (sText : CString) : CAutoOpMod :=
  ({ m with m_msUsers := m.m_msUsers.insert sUser.asLower pUser }.putModule sText).setNV pUser.m_sUsername pUser.toString

/-- AddChans, DelChans and AddMasks -/
def changeUser (m : CAutoOpMod) (sUser sArgs sUsage sDone : CString) (f : CAutoOpUser → CString → CAutoOpUser) :
    CAutoOpMod :=
  if sArgs = [] then m.putModule sUsage
  else
    match m.findUser sUser with
    | none => m.putModule (lit "No such user")
    | some pUser => m.saveUser sUser (f pUser sArgs) (sDone ++ pUser.m_sUsername)

def onAddChansCommand (m : CAutoOpMod) (sLine : CString) : CAutoOpMod :=
  m.changeUser (sLine.token 1 false (ch ' ') false) (sLine.token 2 true (ch ' ') false)
    (lit "Usage: AddChans <user> <channel> [channel] ...") (lit "Channel(s) added to user ") CAutoOpUser.addChans

def onDelChansCommand (m : CAutoOpMod) (sLine : CString) : CAutoOpMod :=
  m.changeUser (sLine.token 1 false (ch ' ') false) (sLine.token 2 true (ch ' ') false)
    (lit "Usage: DelChans <user> <channel> [channel] ...") (lit "Channel(s) Removed from user ") CAutoOpUser.delChans

def onAddMasksCommand (m : CAutoOpMod) (sLine : CString) : CAutoOpMod :=
  m.changeUser (sLine.token 1 false (ch ' ') false) (sLine.token 2 false (ch ' ') false)
    (lit "Usage: AddMasks <user> <mask>,[mask] ...") (lit "Hostmasks(s) added to user ") CAutoOpUser.addHostmasks

def onDelMasksCommand (m : CAutoOpMod) (sLine : CString) : CAutoOpMod :=
  let sUser := sLine.token 1 false (ch ' ') false
  let sHostmasks := sLine.token 2 false (ch ' ') false
  if sHostmasks = [] then m.putModule (lit "Usage: DelMasks <user> <mask>,[mask] ...")
  else
    match m.findUser sUser with
    | none => m.putModule (lit "No such user")
    | some pUser =>
      let (pUser, bEmpty) := pUser.delHostmasks sHostmasks
      if bEmpty then
        ((m.putModule (lit "Removed user " ++ pUser.m_sUsername ++ lit " with key " ++ pUser.m_sUserKey ++
          lit " and channels " ++ pUser.getChannels)).delUser sUser).delNV sUser
      else m.saveUser sUser pUser (lit "Hostmasks(s) Removed from user " ++ pUser.m_sUsername)

def step (m : CAutoOpMod) : Command → CAutoOpMod
  | .addUser sLine => m.onAddUserCommand sLine
  | .delUser sLine => m.onDelUserCommand sLine
  | .addChans sLine => m.onAddChansCommand sLine
  | .delChans sLine => m.onDelChansCommand sLine
  | .addMasks sLine => m.onAddMasksCommand sLine
  | .delMasks sLine => m.onDelMasksCommand sLine

/-- the body of the loop of `OnLoad` -/
def loadEntry (m_msUsers : OrdMap CString CAutoOpUser) (it : CString × CString) : OrdMap CString CAutoOpUser :=
  let (pUser, bOk) := CAutoOpUser.fromString it.2
  if !bOk || (m_msUsers.find pUser.m_sUsername.asLower).isSome then m_msUsers
  else m_msUsers.insert pUser.m_sUsername.asLower pUser

/-- `OnLoad`: the users in a registry -/
def onLoad (m_mssRegistry : MCString) : OrdMap CString CAutoOpUser := m_mssRegistry.entries.foldl loadEntry .empty

/-- the users after a restart: the registry is written and read -/
def restarted (m : CAutoOpMod) : OrdMap CString CAutoOpUser :=
  onLoad (Registry.readFromDisk Registry.defaultFilter (Registry.writeToDisk Registry.defaultFilter m.m_mssRegistry).2).2

/-- no users, and an empty registry -/
def start : CAutoOpMod := ⟨.empty, .empty, []⟩

end CAutoOpMod

open CAutoOpMod

/-! ## What the registry is for -/

/-- a restart gives the users of the table -/
def Keeps (m : CAutoOpMod) : Prop := m.restarted = m.m_msUsers

namespace CAutoOpMod

/-- no other entry of the registry has the name, ignoring case -/
def Alone (m : CAutoOpMod) (sUser : CString) : Prop :=
  ∀ k ∈ m.m_mssRegistry.keys, k.asLower = sUser.asLower → k = sUser

/-- no entry of the registry with the name, ignoring case, stands before this one -/
def First (m : CAutoOpMod) (sUser : CString) : Prop :=
  ∀ k ∈ m.m_mssRegistry.keys, k.asLower = sUser.asLower → sUser ≤ k

/-- the user that is found fits when it is changed -/
def Changes (m : CAutoOpMod) (sUser sArgs : CString) (f : CAutoOpUser → CString → CAutoOpUser) : Prop :=
  sArgs ≠ [] → ∀ u ∈ m.findUser sUser, (f u sArgs).Fits

/-- what the commands take: who is removed is named as in the registry, where nobody else has the name in other letters; who is
added comes before the others with the name; and what is saved fits on its line -/
def Meets (m : CAutoOpMod) : Command → Prop
  | .addUser sLine =>
    let sUser := sLine.token 1 false (ch ' ') false
    let sHost := sLine.token 2 false (ch ' ') false
    sHost ≠ [] → m.m_msUsers.find sUser = none → m.First sUser ∧
      (CAutoOpUser.new sUser (sLine.token 3 false (ch ' ') false) sHost (sLine.token 4 true (ch ' ') false)).Fits
  | .delUser sLine =>
    let sUser := sLine.token 1 false (ch ' ') false
    sUser ≠ [] → m.Alone sUser
  | .addChans sLine =>
    m.Changes (sLine.token 1 false (ch ' ') false) (sLine.token 2 true (ch ' ') false) CAutoOpUser.addChans
  | .delChans sLine =>
    m.Changes (sLine.token 1 false (ch ' ') false) (sLine.token 2 true (ch ' ') false) CAutoOpUser.delChans
  | .addMasks sLine =>
    m.Changes (sLine.token 1 false (ch ' ') false) (sLine.token 2 false (ch ' ') false) CAutoOpUser.addHostmasks
  | .delMasks sLine =>
    let sUser := sLine.token 1 false (ch ' ') false
    let sHostmasks := sLine.token 2 false (ch ' ') false
    sHostmasks ≠ [] → ∀ u ∈ m.findUser sUser,
      if (u.delHostmasks sHostmasks).2 then m.Alone sUser else (u.delHostmasks sHostmasks).1.Fits

end CAutoOpMod

/-! ## Loading -/

/-- the user of an entry, if it is read back with that key of the table -/
def loads (key : CString) (it : CString × CString) : Option CAutoOpUser :=
  if (CAutoOpUser.fromString it.2).2 = true ∧ (CAutoOpUser.fromString it.2).1.m_sUsername.asLower = key then
    some (CAutoOpUser.fromString it.2).1
  else none

theorem load_find (l : List (CString × CString)) (ms : OrdMap CString CAutoOpUser) (key : CString) :
    (l.foldl loadEntry ms).find key = (ms.find key).or (l.findSome? (loads key)) := by
  induction l generalizing ms with
  | nil => exact (or_none).symm
  | cons it l ih =>
    have hone : (loadEntry ms it).find key = (ms.find key).or (loads key it) := by
      by_cases hok : (CAutoOpUser.fromString it.2).2 = true
      · by_cases hkey : (CAutoOpUser.fromString it.2).1.m_sUsername.asLower = key
        · have hload : loads key it = some (CAutoOpUser.fromString it.2).1 := if_pos ⟨hok, hkey⟩
          rw [loadEntry, hload]
          dsimp only
          rw [hok, hkey]
          cases hfind : ms.find key with
          | none => simp [find_insert]
          | some u => simp [hfind]
        · have hload : loads key it = none := if_neg fun h => hkey h.2
          rw [loadEntry, hload, or_none]
          dsimp only
          split_ifs
          · rfl
          · rw [find_insert, if_neg (Ne.symm hkey)]
      · have hload : loads key it = none := if_neg fun h => hok h.1
        rw [loadEntry, hload, or_none]
        dsimp only
        rw [if_pos (by simp [hok])]
    rw [List.foldl_cons, ih, hone, Option.or_assoc, List.findSome?_cons]
    cases loads key it with
    | none => rfl
    | some u => rfl

variable {m : CAutoOpMod}

theorem restarted_find (m : CAutoOpMod) (key : CString) :
    m.restarted.find key = (m.m_mssRegistry.erase []).entries.findSome? (loads key) := by
  rw [restarted, (Registry.registry_round_trip m.m_mssRegistry).2, onLoad, load_find, find_empty, none_or]

theorem loads_saved {u : CAutoOpUser} (hsplit : u.Split) (hfits : u.Fits) (key k : CString) :
    loads key (k, u.toString) = if u.m_sUsername.asLower = key then some u else none := by
  rw [loads, (CAutoOpUser.saved_iff hsplit).2 hfits]
  simp

/-! ## What a command does -/

/-- every user of the table is saved under its name, before the others of that name, and every entry is the line of a user and
belongs to one of the table -/
structure Inv (m : CAutoOpMod) : Prop where
  users : ∀ {k u}, m.m_msUsers.find k = some u → u.m_sUsername.asLower = k ∧
    m.m_mssRegistry.find u.m_sUsername = some u.toString ∧ m.First u.m_sUsername ∧ u.Split ∧ u.Fits
  entries : ∀ {k v}, m.m_mssRegistry.find k = some v →
    ∃ u : CAutoOpUser, u.m_sUsername = k ∧ u.Split ∧ u.Fits ∧ v = u.toString
  found : ∀ {k v}, m.m_mssRegistry.find k = some v → m.m_msUsers.find k.asLower ≠ none

theorem Inv.keeps (h : Inv m) : Keeps m := by
  apply ext_find
  intro key
  rw [restarted_find]
  cases hfind : m.m_msUsers.find key with
  | none =>
    rw [findSome_entries_none_iff]
    intro k v hk
    rw [find_erase] at hk
    split_ifs at hk
    obtain ⟨u, hname, hsplit, hfits, rfl⟩ := h.entries hk
    have hne : u.m_sUsername.asLower ≠ key := by
      rintro rfl
      exact h.found hk (hname ▸ hfind)
    rw [loads_saved hsplit hfits, if_neg hne]
  | some u =>
    obtain ⟨hkey, hsaved, hfirst, hsplit, hfits⟩ := h.users hfind
    rw [findSome_entries_iff]
    refine ⟨u.m_sUsername, u.toString, ?_, ?_, fun k v hk hlt => ?_⟩
    · rw [find_erase, if_neg hfits.name.1, hsaved]
    · rw [loads_saved hsplit hfits, if_pos hkey]
    · rw [find_erase] at hk
      split_ifs at hk
      obtain ⟨u', hname, hsplit', hfits', rfl⟩ := h.entries hk
      have hne : u'.m_sUsername.asLower ≠ key := by
        intro hsame
        refine absurd (hfirst k ((mem_keys_iff _ _).2 ⟨_, hk⟩) ?_) (not_le.2 hlt)
        rw [← hname, hsame, hkey]
      rw [loads_saved hsplit' hfits', if_neg hne]

/-- the user is in the table, and saved under its name -/
structure Saves (m m' : CAutoOpMod) (key : CString) (u : CAutoOpUser) : Prop where
  name : u.m_sUsername.asLower = key
  split : u.Split
  users : m'.m_msUsers = m.m_msUsers.insert key u
  registry : m'.m_mssRegistry = m.m_mssRegistry.insert u.m_sUsername u.toString

/-- the user is removed from the table, and an entry of that name -/
structure Removes (m m' : CAutoOpMod) (sUser : CString) : Prop where
  users : m'.m_msUsers = m.m_msUsers.erase sUser.asLower
  registry : m'.m_mssRegistry = m.m_mssRegistry.erase sUser

structure Same (m m' : CAutoOpMod) : Prop where
  users : m'.m_msUsers = m.m_msUsers
  registry : m'.m_mssRegistry = m.m_mssRegistry

variable {m' : CAutoOpMod} {key sUser : CString} {u : CAutoOpUser}

theorem Same.inv (h : Same m m') (hi : Inv m) : Inv m' := by
  obtain ⟨hu, hr⟩ := h
  constructor
  · intro k u hk
    rw [hu] at hk
    have hmore := hi.users hk
    rwa [CAutoOpMod.First, ← hr] at hmore
  · intro k v hk
    exact hi.entries (hr ▸ hk)
  · intro k v hk
    rw [hu]
    exact hi.found (hr ▸ hk)

/-- **A user that is saved** keeps the table and the registry together exactly if it fits, and comes before the others of its
name. -/
theorem Saves.inv_iff (h : Saves m m' key u) (hi : Inv m) : (m.First u.m_sUsername ∧ u.Fits → Inv m') ∧
    (Keeps m' → m.First u.m_sUsername ∧ u.Fits) := by
  obtain ⟨rfl, hsplit, hu, hr⟩ := h
  constructor
  · rintro ⟨hfirst, hfits⟩
    constructor
    · intro k u' hk
      rw [hu, find_insert] at hk
      have hkeys : ∀ k, k ∈ m'.m_mssRegistry.keys → k = u.m_sUsername ∨ k ∈ m.m_mssRegistry.keys := by
        intro k hk
        obtain ⟨v, hv⟩ := (mem_keys_iff _ _).1 hk
        rw [hr, find_insert] at hv
        split_ifs at hv with hname
        · exact .inl hname
        · exact .inr ((mem_keys_iff _ _).2 ⟨v, hv⟩)
      split_ifs at hk with hkey
      · obtain rfl := some.inj hk
        refine ⟨hkey.symm, ?_, ?_, hsplit, hfits⟩
        · rw [hr, find_insert, if_pos rfl]
        · intro k' hk' hsame
          rcases hkeys k' hk' with rfl | hk'
          · exact le_rfl
          · exact hfirst k' hk' hsame
      · obtain ⟨hkey', hsaved, hfirst', hsplit', hfits'⟩ := hi.users hk
        refine ⟨hkey', ?_, ?_, hsplit', hfits'⟩
        · have hne : u'.m_sUsername ≠ u.m_sUsername := fun hn => hkey (by rw [← hkey', hn])
          rw [hr, find_insert, if_neg hne, hsaved]
        · intro k' hk' hsame
          rcases hkeys k' hk' with rfl | hk'
          · exact absurd (hkey'.symm.trans hsame.symm) hkey
          · exact hfirst' k' hk' hsame
    · intro k v hk
      rw [hr, find_insert] at hk
      split_ifs at hk with hname
      · exact ⟨u, hname.symm, hsplit, hfits, (some.inj hk).symm⟩
      · exact hi.entries hk
    · intro k v hk
      rw [hr, find_insert] at hk
      rw [hu, find_insert]
      split_ifs at hk with hname
      · simp [hname]
      · split_ifs
        · exact some_ne_none u
        · exact hi.found hk
  · intro hkeeps
    have hrestart : m'.restarted.find u.m_sUsername.asLower = some u := by
      rw [hkeeps, hu, find_insert, if_pos rfl]
    rw [restarted_find, findSome_entries_iff] at hrestart
    obtain ⟨k, v, hk, hload, hbefore⟩ := hrestart
    rw [find_erase, hr, find_insert] at hk
    split_ifs at hk with hempty hname
    · -- the entry of the user itself is the first
      obtain rfl := some.inj hk
      rw [loads] at hload
      split_ifs at hload with hok
      have hsaved : CAutoOpUser.fromString u.toString = (u, true) := Prod.ext (some.inj hload) hok.1
      refine ⟨fun k' hk' hsame => ?_, (CAutoOpUser.saved_iff hsplit).1 hsaved⟩
      obtain ⟨v', hv'⟩ := (mem_keys_iff _ _).1 hk'
      obtain ⟨u', hname', hsplit', hfits', rfl⟩ := hi.entries hv'
      by_contra hlt
      rw [not_le] at hlt
      have hin : (m'.m_mssRegistry.erase []).find k' = some u'.toString := by
        rw [find_erase, if_neg (hname' ▸ hfits'.name.1), hr, find_insert, if_neg (ne_of_lt hlt), hv']
      have hnone := hbefore k' _ hin (hname ▸ hlt)
      rw [loads_saved hsplit' hfits', if_pos (by rw [hname', hsame])] at hnone
      exact some_ne_none u' hnone
    · -- no other entry has the line of a user of this name
      obtain ⟨u', hname', hsplit', hfits', rfl⟩ := hi.entries hk
      rw [loads_saved hsplit' hfits'] at hload
      split_ifs at hload
      obtain rfl := some.inj hload
      exact absurd hname'.symm hname

/-- **A user that is removed** is gone exactly if no other entry has its name. -/
theorem Removes.inv_iff (h : Removes m m' sUser) (hi : Inv m) :
    (m.Alone sUser → Inv m') ∧ (Keeps m' → m.Alone sUser) := by
  obtain ⟨hu, hr⟩ := h
  constructor
  · intro halone
    constructor
    · intro k u hk
      rw [hu, find_erase] at hk
      split_ifs at hk with hkey
      obtain ⟨hkey', hsaved, hfirst, hsplit, hfits⟩ := hi.users hk
      refine ⟨hkey', ?_, ?_, hsplit, hfits⟩
      · have hne : u.m_sUsername ≠ sUser := fun hn => hkey (by rw [← hkey', hn])
        rw [hr, find_erase, if_neg hne, hsaved]
      · intro k' hk' hsame
        obtain ⟨v, hv⟩ := (mem_keys_iff _ _).1 hk'
        rw [hr, find_erase] at hv
        split_ifs at hv
        exact hfirst k' ((mem_keys_iff _ _).2 ⟨v, hv⟩) hsame
    · intro k v hk
      rw [hr, find_erase] at hk
      split_ifs at hk
      exact hi.entries hk
    · intro k v hk
      rw [hr, find_erase] at hk
      split_ifs at hk with hname
      have hne : k.asLower ≠ sUser.asLower := fun hsame => hname (halone k ((mem_keys_iff _ _).2 ⟨v, hk⟩) hsame)
      rw [hu, find_erase, if_neg hne]
      exact hi.found hk
  · intro hkeeps k hk hsame
    by_contra hname
    obtain ⟨v, hv⟩ := (mem_keys_iff _ _).1 hk
    obtain ⟨u, hname', hsplit, hfits, rfl⟩ := hi.entries hv
    have hrestart : m'.restarted.find sUser.asLower = none := by rw [hkeeps, hu, find_erase, if_pos rfl]
    rw [restarted_find, findSome_entries_none_iff] at hrestart
    have hnone := hrestart k u.toString (by
      rw [find_erase, if_neg (hname' ▸ hfits.name.1), hr, find_erase, if_neg hname, hv])
    rw [loads_saved hsplit hfits, if_pos (by rw [hname', hsame])] at hnone
    exact some_ne_none u hnone

/-! ## The commands -/

theorem removes_delUser (m : CAutoOpMod) (sUser : CString) : Removes m ((m.delUser sUser).delNV sUser) sUser := by
  unfold delUser
  cases hfind : m.m_msUsers.find sUser.asLower with
  | none =>
    refine ⟨ext_find fun k => ?_, rfl⟩
    rw [find_erase]
    split_ifs with hk
    · rw [hk]
      exact hfind
    · rfl
  | some u => exact ⟨rfl, rfl⟩

theorem saves_saveUser (hi : Inv m) {pUser : CAutoOpUser} (hfind : m.findUser sUser = some pUser)
    (hname : u.m_sUsername = pUser.m_sUsername) (hsplit : u.Split) (sText : CString) :
    Saves m (m.saveUser sUser u sText) sUser.asLower u ∧ m.First u.m_sUsername := by
  obtain ⟨hkey, -, hfirst, -, -⟩ := hi.users hfind
  exact ⟨⟨hname ▸ hkey, hsplit, rfl, rfl⟩, hname ▸ hfirst⟩

/-- **What a command can do**: nothing, save a user or remove one. -/
def Does (m m' : CAutoOpMod) (meets : Prop) : Prop :=
  (Same m m' ∧ meets) ∨ (∃ key u, Saves m m' key u ∧ (meets ↔ m.First u.m_sUsername ∧ u.Fits)) ∨
    ∃ sUser, Removes m m' sUser ∧ (meets ↔ m.Alone sUser)

theorem does_changeUser (hi : Inv m) {f : CAutoOpUser → CString → CAutoOpUser}
    (hname : ∀ u sArgs, (f u sArgs).m_sUsername = u.m_sUsername) (hsplit : ∀ u sArgs, u.Split → (f u sArgs).Split)
    (sUser sArgs sUsage sDone : CString) :
    Does m (m.changeUser sUser sArgs sUsage sDone f) (m.Changes sUser sArgs f) := by
  unfold changeUser CAutoOpMod.Changes
  by_cases hargs : sArgs = []
  · rw [if_pos hargs]
    exact .inl ⟨⟨rfl, rfl⟩, fun hne => absurd hargs hne⟩
  · rw [if_neg hargs]
    cases hfind : m.findUser sUser with
    | none => exact .inl ⟨⟨rfl, rfl⟩, fun _ u hu => by simp at hu⟩
    | some pUser =>
      obtain ⟨-, -, -, hpSplit, -⟩ := hi.users hfind
      obtain ⟨hsaves, hfirst⟩ := saves_saveUser hi hfind (hname pUser sArgs) (hsplit pUser sArgs hpSplit)
        (sDone ++ pUser.m_sUsername)
      refine .inr (.inl ⟨_, _, hsaves, ?_⟩)
      simp [hargs, hfirst]

theorem does_step (hi : Inv m) (c : Command) : Does m (m.step c) (m.Meets c) := by
  cases c with
  | addUser sLine =>
    simp only [step, onAddUserCommand, CAutoOpMod.Meets]
    by_cases hhost : sLine.token 2 false (ch ' ') false = []
    · rw [if_pos hhost]
      exact .inl ⟨⟨rfl, rfl⟩, fun hne => absurd hhost hne⟩
    · rw [if_neg hhost, addUser]
      cases hfind : m.m_msUsers.find (sLine.token 1 false (ch ' ') false) with
      | some u => exact .inl ⟨⟨rfl, rfl⟩, fun _ hnone => by simp at hnone⟩
      | none =>
        refine .inr (.inl ⟨_, _, ⟨rfl, CAutoOpUser.split_new _ _ _ _, rfl, rfl⟩, ?_⟩)
        exact ⟨fun h => h hhost rfl, fun h _ _ => h⟩
  | delUser sLine =>
    simp only [step, onDelUserCommand, CAutoOpMod.Meets]
    split_ifs with huser
    · exact .inl ⟨⟨rfl, rfl⟩, fun hne => absurd huser hne⟩
    · refine .inr (.inr ⟨_, removes_delUser m _, ?_⟩)
      simp [huser]
  | addChans sLine =>
    exact does_changeUser (f := CAutoOpUser.addChans) hi (fun _ _ => rfl)
      (fun _ sArgs h => h.addChans sArgs) _ _ _ _
  | delChans sLine =>
    exact does_changeUser (f := CAutoOpUser.delChans) hi (fun _ _ => rfl)
      (fun _ sArgs h => h.delChans sArgs) _ _ _ _
  | addMasks sLine =>
    exact does_changeUser (f := CAutoOpUser.addHostmasks) hi (fun _ _ => rfl)
      (fun _ sArgs h => h.addHostmasks sArgs) _ _ _ _
  | delMasks sLine =>
    simp only [step, onDelMasksCommand, CAutoOpMod.Meets]
    by_cases hmasks : sLine.token 2 false (ch ' ') false = []
    · rw [if_pos hmasks]
      exact .inl ⟨⟨rfl, rfl⟩, fun hne => absurd hmasks hne⟩
    · rw [if_neg hmasks]
      cases hfind : m.findUser (sLine.token 1 false (ch ' ') false) with
      | none => exact .inl ⟨⟨rfl, rfl⟩, fun _ u hu => by simp at hu⟩
      | some pUser =>
        obtain ⟨-, -, -, hpSplit, -⟩ := hi.users hfind
        dsimp only
        by_cases hempty : (pUser.delHostmasks (sLine.token 2 false (ch ' ') false)).2 = true
        · rw [if_pos hempty]
          obtain ⟨husers, hregistry⟩ := removes_delUser (m.putModule (lit "Removed user " ++ pUser.m_sUsername ++
            lit " with key " ++ pUser.m_sUserKey ++ lit " and channels " ++ pUser.getChannels))
            (sLine.token 1 false (ch ' ') false)
          refine .inr (.inr ⟨_, ⟨husers, hregistry⟩, ?_⟩)
          simp [hmasks, hempty]
        · rw [if_neg hempty]
          obtain ⟨hsaves, hfirst⟩ := saves_saveUser hi hfind
            (u := (pUser.delHostmasks (sLine.token 2 false (ch ' ') false)).1) rfl (hpSplit.delHostmasks _) _
          refine .inr (.inl ⟨_, _, hsaves, ?_⟩)
          simp [hmasks, hempty, hfirst]

theorem step_inv (hi : Inv m) {c : Command} (hmeets : m.Meets c) : Inv (m.step c) := by
  rcases does_step hi c with ⟨hsame, -⟩ | ⟨key, u, hsaves, hiff⟩ | ⟨sUser, hremoves, hiff⟩
  · exact hsame.inv hi
  · exact (hsaves.inv_iff hi).1 (hiff.1 hmeets)
  · exact (hremoves.inv_iff hi).1 (hiff.1 hmeets)

theorem step_exact (hi : Inv m) {c : Command} (hkeeps : Keeps (m.step c)) : m.Meets c := by
  rcases does_step hi c with ⟨-, hmeets⟩ | ⟨key, u, hsaves, hiff⟩ | ⟨sUser, hremoves, hiff⟩
  · exact hmeets
  · exact hiff.2 ((hsaves.inv_iff hi).2 hkeeps)
  · exact hiff.2 ((hremoves.inv_iff hi).2 hkeeps)

/-! ## Runs -/

theorem inv_start : Inv .start := by
  constructor <;> intro k v hk <;> exact absurd hk (by simp [start])

/-- **A restart gives the users of the table** after every command, exactly if every command meets its condition. -/
theorem saved_restart_iff (cs : List Command) :
    Runs.States step Keeps cs .start ↔ Runs.Steps step CAutoOpMod.Meets cs .start := by
  have htrue : Runs.Steps step (fun _ _ => True) cs .start := Runs.steps_iff.2 fun _ _ _ _ => trivial
  have hto : ∀ m c, Inv m → True → m.Meets c → Inv (m.step c) ∧ True :=
    fun m c hi _ hmeets => ⟨step_inv hi hmeets, trivial⟩
  have hfrom : ∀ m c, Inv m → True → Keeps (m.step c) → True → m.Meets c :=
    fun m c hi _ hkeeps _ => step_exact hi hkeeps
  exact (and_iff_left htrue).symm.trans (Runs.keeps_iff (fun m => Inv.keeps) hto hfrom cs inv_start htrue)

/-- **A user comes back**: bob is added, and removed as BOB, but stays in the registry. -/
theorem comes_back :
    let m := step (step .start (.addUser (lit "AddUser bob bob!*@host key #znc")))
      (.delUser (lit "DelUser BOB"))
    m.m_msUsers.find (lit "bob") = none ∧
      m.restarted.find (lit "bob") =
        some (CAutoOpUser.new (lit "bob") (lit "key") (lit "bob!*@host") (lit "#znc")) ∧ ¬ Keeps m := by
  intro m
  have hgone : m.m_msUsers.find (lit "bob") = none := by decide
  have hback : m.restarted.find (lit "bob") =
      some (CAutoOpUser.new (lit "bob") (lit "key") (lit "bob!*@host") (lit "#znc")) := by
    rw [restarted_find]
    decide
  refine ⟨hgone, hback, fun hkeeps => ?_⟩
  rw [hkeeps, hgone] at hback
  exact some_ne_none _ hback.symm

end ZNC.AutoOpSaved
