/-
A channel as ZNC keeps it: `CChan` of `src/Chan.cpp` with the channel side of `CNick` of `src/Nick.cpp`.

A channel has a table of its nicks, a second `CNick` for ZNC's own permissions, and a table of its modes. NAMES and JOIN
add nicks, MODE changes permissions and modes, NICK renames by copy and erase.

Model: each function takes the tables of the server (`t`) and, where it looks at it, ZNC's current nick. A `CNick` knows of its
network only whether it has one.

Results:
- `entered_spec`: what an entry of NAMES makes of its nick;
- `changeNick_find`: what the table holds after a rename;
- `modeLoop_inv`: what every letter of a mode line keeps, the line keeps.
-/
import ZNC.ISupport

namespace ZNC.Chan

open CString

/-! ## Nicks -/

/-- `CNick` with its channel permissions -/
structure CNick extends ZNC.CNick where
  sChanPerms : CString
  /-- `m_pNetwork` is set -/
  bNetwork : Bool
deriving DecidableEq, Repr

namespace CNick

/-- `CNick(sNick)` -/
def ofMask (sNick : CString) : CNick := { ZNC.CNick.empty.parse sNick with sChanPerms := [], bNetwork := false }

def reset (n : CNick) : CNick := { n with sChanPerms := [], bNetwork := false }

/-- `SetIdent` and `SetHost` with what is not empty -/
def fill (n : CNick) (sIdent sHost : CString) : CNick :=
  { n with sIdent := if sIdent ≠ [] then sIdent else n.sIdent, sHost := if sHost ≠ [] then sHost else n.sHost }

def hasPerm (n : CNick) (cPerm : UInt8) : Bool := cPerm ≠ 0 ∧ cPerm ∈ n.sChanPerms

def addPerm (n : CNick) (cPerm : UInt8) : CNick :=
  if cPerm = 0 ∨ n.hasPerm cPerm then n else { n with sChanPerms := n.sChanPerms ++ [cPerm] }

def remPerm (n : CNick) (cPerm : UInt8) : CNick := { n with sChanPerms := n.sChanPerms.erase cPerm }

/-- the permission characters that `GetPermChar` and `GetPermStr` go through -/
def knownPerms (t : ServerTables) (n : CNick) : CString := if n.bNetwork then t.sPerms else lit "@+"

def getPermChar (t : ServerTables) (n : CNick) : UInt8 := ((n.knownPerms t).find? n.hasPerm).getD 0

def getPermStr (t : ServerTables) (n : CNick) : CString := (n.knownPerms t).filter n.hasPerm

end CNick

/-! ## Channels -/

/-- `CChan`; `nick` is `m_Nick`, ZNC's own permissions -/
structure CChan where
  sKey : CString
  bIsOn : Bool
  nick : CNick
  msNicks : OrdMap CString CNick
  mcsModes : OrdMap UInt8 CString
deriving DecidableEq

namespace CChan

/-- `CChan(sName, pNetwork, false)` -/
def new : CChan where
  sKey := []
  bIsOn := false
  nick := { ZNC.CNick.empty with sChanPerms := [], bNetwork := true }
  msNicks := .empty
  mcsModes := .empty

def reset (c : CChan) : CChan := { c with bIsOn := false, mcsModes := .empty, nick := c.nick.reset, msNicks := .empty }

def setIsOn (c : CChan) (b : Bool) : CChan := if b then { c with bIsOn := true } else { c with bIsOn := false }.reset

def findNick (c : CChan) (sNick : CString) : Option CNick := c.msNicks.find sNick

/-- the permission characters in front of an entry of NAMES -/
def entryPrefix (t : ServerTables) (sNick : CString) : CString := sNick.cStr.takeWhile t.isPermChar

/-- what stands behind them -/
def entryMask (t : ServerTables) (sNick : CString) : CString := sNick.cStr.dropWhile t.isPermChar

/-- the nick of the entry, `sTmp` in the end -/
def entryNick (t : ServerTables) (sNick : CString) : CString := (entryMask t sNick).token 0 false (ch '!') false

/-- the `CNick` that an entry for `sTmp` finds in the table, or begins with -/
def entryFrom (c : CChan) (sTmp : CString) : CNick := (c.findNick sTmp).getD { CNick.ofMask sTmp with bNetwork := true }

/-- `*pNick` after an entry: user, host and permissions are taken over -/
def entered (t : ServerTables) (c : CChan) (sNick : CString) : CNick :=
  let sIdent := (entryMask t sNick).token 1 true (ch '!') false
  let sHost := sIdent.token 1 true (ch '@') false
  let sIdent := sIdent.token 0 false (ch '@') false
  (entryPrefix t sNick).foldl CNick.addPerm ((c.entryFrom (entryNick t sNick)).fill sIdent sHost)

/-- `AddNick(sNick)`, and whether it did -/
def addNick (t : ServerTables) (sCurNick : CString) (c : CChan) (sNick : CString) : CChan × Bool :=
  if entryPrefix t sNick ≠ [] ∧ entryMask t sNick = [] then (c, false)
  else
    let sTmp := entryNick t sNick
    let n := c.entered t sNick
    -- a nick that was found has been changed in its place
    let msNicks := if (c.findNick sTmp).isSome then c.msNicks.insert sTmp n else c.msNicks
    ({ c with
        nick := if n.nickEquals sCurNick then (entryPrefix t sNick).foldl CNick.addPerm c.nick else c.nick
        msNicks := msNicks.insert n.sNick n }, true)

def addNicks (t : ServerTables) (sCurNick : CString) (c : CChan) (sNicks : CString) : CChan :=
  (sNicks.split (ch ' ') false).foldl (fun c sNick => (c.addNick t sCurNick sNick).1) c

def remNick (c : CChan) (sNick : CString) : CChan := { c with msNicks := c.msNicks.erase sNick }

/-- `ChangeNick(sOldNick, sNewNick)`, and whether it did -/
def changeNick (c : CChan) (sOldNick sNewNick : CString) : CChan × Bool :=
  match c.findNick sOldNick with
  | none => (c, false)
  | some n =>
    let n := { n with sNick := sNewNick }
    -- a new entry under the new nick, then the old one goes
    ({ c with msNicks := ((c.msNicks.insert sOldNick n).insert sNewNick n).erase sOldNick }, true)

/-! ## Modes -/

def hasMode (c : CChan) (cMode : UInt8) : Bool := cMode ≠ 0 ∧ (c.mcsModes.find cMode).isSome

def getModeArg (c : CChan) (cMode : UInt8) : CString := if cMode ≠ 0 then (c.mcsModes.find cMode).getD [] else []

def addMode (c : CChan) (cMode : UInt8) (sArg : CString) : CChan := { c with mcsModes := c.mcsModes.insert cMode sArg }

def remMode (c : CChan) (cMode : UInt8) : CChan :=
  if c.hasMode cMode then { c with mcsModes := c.mcsModes.erase cMode } else c

/-- a permission mode on the nick `sArg` -/
def permMode (t : ServerTables) (sCurNick : CString) (c : CChan) (bAdd : Bool) (cMode : UInt8)
    (sArg : CString) : CChan :=
  match c.findNick sArg with
  | none => c
  | some n =>
    let cPerm := t.getPermFromMode cMode
    if cPerm ≠ 0 then
      if bAdd then
        { c with
          msNicks := c.msNicks.insert sArg (n.addPerm cPerm)
          nick := if n.nickEquals sCurNick then c.nick.addPerm cPerm else c.nick }
      else
        { c with
          msNicks := c.msNicks.insert sArg (n.remPerm cPerm)
          nick := if n.nickEquals sCurNick then c.nick.remPerm cPerm else c.nick }
    else c

/-- a channel mode with the argument `sArg` -/
def chanMode (t : ServerTables) (c : CChan) (bAdd : Bool) (cMode : UInt8) (sArg : CString) : CChan :=
  let bList := t.getModeType cMode = .ListArg
  let bNoChange :=
    if bList then false
    else if bAdd then c.hasMode cMode ∧ c.getModeArg cMode = sArg
    else !c.hasMode cMode
  let c := if bList then c else if bAdd then c.addMode cMode sArg else c.remMode cMode
  -- the key "*" is what some networks show instead
  if cMode = ch 'k' ∧ bNoChange = false ∧ bAdd ∧ sArg ≠ lit "*" then { c with sKey := sArg } else c

/-- the mode `cMode` takes an argument -/
def takesArg (t : ServerTables) (bAdd : Bool) (cMode : UInt8) : Bool :=
  t.isPermMode cMode ||
    match t.getModeType cMode with
    | .ListArg => true
    | .HasArg => true
    | .NoArg => false
    | .ArgWhenSet => bAdd

/-- the loop of `ModeChange` over the letters; `vsModes` are the arguments still to come -/
def modeLoop (t : ServerTables) (sCurNick : CString) : CChan → Bool → VCString → CString → CChan
  | c, _, _, [] => c
  | c, bAdd, vsModes, cMode :: sModes =>
    if cMode = ch '+' then modeLoop t sCurNick c true vsModes sModes
    else if cMode = ch '-' then modeLoop t sCurNick c false vsModes sModes
    else
      let sArg := if takesArg t bAdd cMode then vsModes.headD [] else []
      let rest := if takesArg t bAdd cMode then vsModes.tail else vsModes
      let c := if t.isPermMode cMode then c.permMode t sCurNick bAdd cMode sArg else c.chanMode t bAdd cMode sArg
      modeLoop t sCurNick c bAdd rest sModes

def modeChange (t : ServerTables) (sCurNick : CString) (c : CChan) (sModes : CString) (vsModes : VCString) : CChan :=
  modeLoop t sCurNick c true vsModes sModes

def setModes (t : ServerTables) (sCurNick : CString) (c : CChan) (sModes : CString) (vsModes : VCString) : CChan :=
  { c with mcsModes := .empty }.modeChange t sCurNick sModes vsModes

def getModeString (c : CChan) : CString :=
  let sModes := c.mcsModes.keys
  let sArgs := c.mcsModes.entries.flatMap fun it => if it.2 = [] then [] else ch ' ' :: it.2
  if sModes = [] then [] else ch '+' :: (sModes ++ sArgs)

/-! ## What the operations do -/

/-- `AddPerm` on the permission characters alone -/
def permsAdd (sPerms : CString) (cPerm : UInt8) : CString :=
  if cPerm = 0 ∨ cPerm ∈ sPerms then sPerms else sPerms ++ [cPerm]

theorem addPerm_eq (n : CNick) (cPerm : UInt8) :
    n.addPerm cPerm = { n with sChanPerms := permsAdd n.sChanPerms cPerm } := by
  unfold CNick.addPerm permsAdd CNick.hasPerm
  by_cases h0 : cPerm = 0
  · rw [if_pos (.inl h0), if_pos (.inl h0)]
  · by_cases hmem : cPerm ∈ n.sChanPerms
    · rw [if_pos (.inr (by simp [h0, hmem])), if_pos (.inr hmem)]
    · rw [if_neg (by simp [h0, hmem]), if_neg (by simp [h0, hmem])]

theorem foldl_addPerm (sPrefix : CString) (n : CNick) :
    sPrefix.foldl CNick.addPerm n = { n with sChanPerms := sPrefix.foldl permsAdd n.sChanPerms } := by
  induction sPrefix generalizing n with
  | nil => rfl
  | cons cPerm sPrefix ih => rw [List.foldl_cons, List.foldl_cons, addPerm_eq, ih]

theorem entered_spec (t : ServerTables) (c : CChan) (sNick : CString) :
    (c.entered t sNick).sNick = (c.entryFrom (entryNick t sNick)).sNick ∧
      (c.entered t sNick).bNetwork = (c.entryFrom (entryNick t sNick)).bNetwork ∧
      (c.entered t sNick).sChanPerms =
        (entryPrefix t sNick).foldl permsAdd (c.entryFrom (entryNick t sNick)).sChanPerms := by
  rw [entered, foldl_addPerm]
  exact ⟨rfl, rfl, rfl⟩

/-- **What `AddNick` does**, unless there is nothing behind the permission characters. -/
theorem addNick_eq {t : ServerTables} {sNick : CString} (h : ¬(entryPrefix t sNick ≠ [] ∧ entryMask t sNick = []))
    (sCurNick : CString) (c : CChan) :
    (c.addNick t sCurNick sNick).1 =
      { c with
        nick := if (c.entered t sNick).nickEquals sCurNick then
            { c.nick with sChanPerms := (entryPrefix t sNick).foldl permsAdd c.nick.sChanPerms }
          else c.nick
        msNicks := (if (c.findNick (entryNick t sNick)).isSome then c.msNicks.insert (entryNick t sNick) (c.entered t sNick)
          else c.msNicks).insert (c.entered t sNick).sNick (c.entered t sNick) } := by
  rw [addNick, if_neg h, foldl_addPerm]

variable {t : ServerTables}

/-- **What a permission mode does** to a nick of the table. -/
theorem permMode_eq {c : CChan} {sArg : CString} {n : CNick} (hn : c.findNick sArg = some n) {cMode : UInt8}
    (hperm : t.getPermFromMode cMode ≠ 0) (sCurNick : CString) (bAdd : Bool) :
    c.permMode t sCurNick bAdd cMode sArg =
      { c with
        msNicks := c.msNicks.insert sArg
          (if bAdd then n.addPerm (t.getPermFromMode cMode) else n.remPerm (t.getPermFromMode cMode))
        nick := if n.nickEquals sCurNick then
            (if bAdd then c.nick.addPerm (t.getPermFromMode cMode) else c.nick.remPerm (t.getPermFromMode cMode))
          else c.nick } := by
  simp only [permMode, hn, if_pos hperm]
  cases bAdd <;> rfl

theorem permMode_eq_self {c : CChan} {cMode : UInt8} {sArg : CString}
    (h : c.findNick sArg = none ∨ t.getPermFromMode cMode = 0) (sCurNick : CString) (bAdd : Bool) :
    c.permMode t sCurNick bAdd cMode sArg = c := by
  unfold permMode
  cases hn : c.findNick sArg with
  | none => rfl
  | some n =>
    rcases h with h | h
    · rw [hn] at h
      cases h
    · simp only [h, ne_eq, not_true_eq_false, if_false]

theorem changeNick_find {c : CChan} {sOldNick : CString} {n : CNick} (h : c.findNick sOldNick = some n)
    (sNewNick sNick : CString) : (c.changeNick sOldNick sNewNick).1.findNick sNick =
      if sNick = sOldNick then none
      else if sNick = sNewNick then some { n with sNick := sNewNick } else c.findNick sNick := by
  have hchange : (c.changeNick sOldNick sNewNick).1.msNicks =
    ((c.msNicks.insert sOldNick { n with sNick := sNewNick }).insert
      sNewNick { n with sNick := sNewNick }).erase sOldNick := by
    rw [changeNick, h]
  rw [findNick, hchange, OrdMap.find_erase, OrdMap.find_insert, OrdMap.find_insert]
  split_ifs <;> rfl

theorem modeLoop_inv {P : CChan → Prop} {sCurNick : CString}
    (hperm : ∀ c bAdd cMode sArg, P c → P (c.permMode t sCurNick bAdd cMode sArg))
    (hchan : ∀ c bAdd cMode sArg, P c → P (c.chanMode t bAdd cMode sArg)) (c : CChan) (bAdd : Bool) (vsModes : VCString)
    (sModes : CString) (h : P c) : P (modeLoop t sCurNick c bAdd vsModes sModes) := by
  induction sModes generalizing c bAdd vsModes with
  | nil => exact h
  | cons cMode sModes ih =>
    rw [modeLoop]
    by_cases hplus : cMode = ch '+'
    · rw [if_pos hplus]
      exact ih _ _ _ h
    by_cases hminus : cMode = ch '-'
    · rw [if_neg hplus, if_pos hminus]
      exact ih _ _ _ h
    rw [if_neg hplus, if_neg hminus]
    apply ih
    by_cases hmode : t.isPermMode cMode = true
    · rw [if_pos hmode]
      exact hperm _ _ _ _ h
    · rw [if_neg hmode]
      exact hchan _ _ _ _ h

theorem chanMode_frame (t : ServerTables) (c : CChan) (bAdd : Bool) (cMode : UInt8) (sArg : CString) :
    (c.chanMode t bAdd cMode sArg).msNicks = c.msNicks ∧ (c.chanMode t bAdd cMode sArg).nick = c.nick ∧
      (c.chanMode t bAdd cMode sArg).bIsOn = c.bIsOn := by
  unfold chanMode addMode remMode
  dsimp only
  split_ifs <;> exact ⟨rfl, rfl, rfl⟩

end CChan

end ZNC.Chan
