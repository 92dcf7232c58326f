/-
What the server says about itself in 005: `CIRCSock::ParseISupport` of `src/IRCSock.cpp` and the tables it fills.

A 005 line is a list of tokens `NAME=value` between the own nick and a trailing text. PREFIX fills the two permission tables,
CHANMODES the table of channel modes; both are cut out of the value with `Token`.

Model: `setToken` is one round of the loop, `parseISupport` a line, `tables` a run of lines on a new connection.

Results:
- `permTables_length`, `perm_inverse`: the permission tables stay of one length, and each is read back from the other;
- `advertised_field`: a field that only tokens with one name set holds what the last of them made of it.
-/
import ZNC.Message
import ZNC.Token

namespace ZNC

open CString Words List

/-! ## Numbers -/

namespace CString

/-- `strtoul(s, nullptr, 10)` on 64 bits -/
def strtoul (s : CString) : UInt64 :=
  let p := s.cStr.dropWhile isspace
  let bNegative := p.head? = some (ch '-')
  let p := if bNegative || p.head? = some (ch '+') then p.drop 1 else p
  let n := (p.takeWhile isdigit).foldl (fun n c => 10 * n + (c.toNat - (ch '0').toNat)) 0
  if 2 ^ 64 ≤ n then UInt64.ofNat (2 ^ 64 - 1) else if bNegative then 0 - UInt64.ofNat n else UInt64.ofNat n

def toUInt (s : CString) : UInt32 := s.strtoul.toUInt32

def toUShort (s : CString) : UInt16 := s.strtoul.toUInt16

end CString

/-! ## Model -/

/-- how a channel mode takes its argument -/
inductive EChanModeArgs where
  | ListArg
  | HasArg
  | ArgWhenSet
  | NoArg
deriving DecidableEq, Repr

def EChanModeArgs.ofIndex : ℕ → EChanModeArgs
  | 0 => .ListArg
  | 1 => .HasArg
  | 2 => .ArgWhenSet
  | _ => .NoArg

/-- what a `CIRCSock` and its network keep of the 005 lines; `vsPut` are the lines it answers with -/
structure ServerTables where
  sPerms : CString
  sPermModes : CString
  mceChanModes : OrdMap UInt8 EChanModeArgs
  mISupport : MCString
  sChanPrefixes : CString
  uMaxNickLen : UInt32
  bNamesx : Bool
  bUHNames : Bool
  vsPut : VCString

namespace ServerTables

/-- a `CIRCSock` after its constructor -/
def initial (sChanPrefixes : CString) : ServerTables where
  sPerms := lit "*!@%+"
  sPermModes := lit "qaohv"
  mceChanModes := .ofList [(ch 'b', .ListArg), (ch 'e', .ListArg), (ch 'I', .ListArg), (ch 'k', .HasArg),
    (ch 'l', .ArgWhenSet), (ch 'p', .NoArg), (ch 's', .NoArg), (ch 't', .NoArg), (ch 'i', .NoArg), (ch 'n', .NoArg)]
  mISupport := .empty
  sChanPrefixes := sChanPrefixes
  uMaxNickLen := 9
  bNamesx := false
  bUHNames := false
  vsPut := []

/-- the table of channel modes for the value of CHANMODES -/
def chanModes (sValue : CString) : OrdMap UInt8 EChanModeArgs :=
  (List.range 4).foldl
    (fun m a => (sValue.token a false (ch ',') false).foldl (fun m c => m.insert c (.ofIndex a)) m) .empty

/-- the body of the loop, for a token with this name and value -/
def setToken (t : ServerTables) (sName sValue : CString) : ServerTables :=
  let t := { t with mISupport := t.mISupport.insert sName sValue }
  if sName.equals (lit "PREFIX") then
    let sPrefixes := sValue.token 1 false (ch ')') false
    let sPermModes := (sValue.token 0 false (ch ')') false).trimLeft (lit "(")
    if sPrefixes ≠ [] ∧ sPermModes.length = sPrefixes.length then
      { t with sPerms := sPrefixes, sPermModes := sPermModes }
    else t
  else if sName.equals (lit "CHANTYPES") then { t with sChanPrefixes := sValue }
  else if sName.equals (lit "NICKLEN") then
    let uMax := sValue.toUInt
    if uMax ≠ 0 then { t with uMaxNickLen := uMax } else t
  else if sName.equals (lit "CHANMODES") then
    if sValue ≠ [] then { t with mceChanModes := chanModes sValue } else t
  else if sName.equals (lit "NAMESX") then
    if t.bNamesx then t else { t with bNamesx := true, vsPut := t.vsPut ++ [lit "PROTOCTL NAMESX"] }
  else if sName.equals (lit "UHNAMES") then
    if t.bUHNames then t else { t with bUHNames := true, vsPut := t.vsPut ++ [lit "PROTOCTL UHNAMES"] }
  else t

def nameOf (sParam : CString) : CString := sParam.token 0 false (ch '=') false

/-- the loop over the parameters -/
def parseParams (t : ServerTables) : VCString → ServerTables
  | [] => t
  | sParam :: vsParams =>
    -- behind a colon stands the text for humans
    if (nameOf sParam).head? = some (ch ':') then t
    else parseParams (t.setToken (nameOf sParam) (sParam.token 1 true (ch '=') false)) vsParams

/-- `ParseISupport(Message)`: the first and the last parameter are no tokens -/
def parseISupport (t : ServerTables) (m : CMessage) : ServerTables := t.parseParams (m.vsParams.dropLast.drop 1)

/-- the tables of a new connection after some 005 lines -/
def tables (sChanPrefixes : CString) (lines : List CMessage) : ServerTables :=
  lines.foldl parseISupport (initial sChanPrefixes)

def isPermChar (t : ServerTables) (c : UInt8) : Bool := c ≠ 0 ∧ c ∈ t.sPerms

def isPermMode (t : ServerTables) (c : UInt8) : Bool := c ≠ 0 ∧ c ∈ t.sPermModes

/-- the byte of `ws` at the first place where `vs` has `c` -/
def translate : CString → CString → UInt8 → UInt8
  | v :: vs, w :: ws, c => if v = c then w else translate vs ws c
  | _, _, _ => 0

def getPermFromMode (t : ServerTables) (cMode : UInt8) : UInt8 :=
  if t.sPermModes.length = t.sPerms.length then translate t.sPermModes t.sPerms cMode else 0

def getModeFromPerm (t : ServerTables) (cPerm : UInt8) : UInt8 :=
  if t.sPermModes.length = t.sPerms.length then translate t.sPerms t.sPermModes cPerm else 0

def getModeType (t : ServerTables) (cMode : UInt8) : EChanModeArgs := (t.mceChanModes.find cMode).getD .NoArg

def getISupport (t : ServerTables) (sKey : CString) : CString := (t.mISupport.find sKey.asUpper).getD []

/-! ## Permission tables -/

theorem translate_zip {vs ws : CString} (hv : vs.Nodup) {v w : UInt8} (h : (v, w) ∈ vs.zip ws) :
    translate vs ws v = w := by
  induction vs generalizing ws with
  | nil => simp at h
  | cons a vs ih =>
    cases ws with
    | nil => simp at h
    | cons b ws =>
      obtain ⟨ha, hv⟩ := nodup_cons.1 hv
      rw [zip_cons_cons, mem_cons] at h
      rcases h with h | h
      · obtain ⟨rfl, rfl⟩ := Prod.mk.inj h
        rw [translate, if_pos rfl]
      · have hne : a ≠ v := fun h0 => ha (h0 ▸ (of_mem_zip h).1)
        rw [translate, if_neg hne, ih hv h]

theorem perm_inverse {t : ServerTables} (hlen : t.sPermModes.length = t.sPerms.length) (hm : t.sPermModes.Nodup)
    (hp : t.sPerms.Nodup) {m p : UInt8} (h : (m, p) ∈ t.sPermModes.zip t.sPerms) :
    t.getPermFromMode m = p ∧ t.getModeFromPerm p = m := by
  have hswap : (p, m) ∈ t.sPerms.zip t.sPermModes := by
    rw [← zip_swap, mem_map]
    exact ⟨(m, p), h, rfl⟩
  rw [getPermFromMode, getModeFromPerm, if_pos hlen, if_pos hlen]
  exact ⟨translate_zip hm h, translate_zip hp hswap⟩

/-! ## Lines and their tokens -/

def readTokens (m : CMessage) : VCString :=
  (m.vsParams.dropLast.drop 1).takeWhile fun p => (nameOf p).head? ≠ some (ch ':')

/-- one round of the loop -/
def readToken (t : ServerTables) (sParam : CString) : ServerTables :=
  t.setToken (nameOf sParam) (sParam.token 1 true (ch '=') false)

variable (t : ServerTables)

theorem parseParams_eq (vsParams : VCString) :
    t.parseParams vsParams = (vsParams.takeWhile fun p => (nameOf p).head? ≠ some (ch ':')).foldl readToken t := by
  induction vsParams generalizing t with
  | nil => rfl
  | cons p ps ih =>
    by_cases hp : (nameOf p).head? = some (ch ':')
    · rw [parseParams, if_pos hp, takeWhile_cons_of_neg (by simpa using hp), foldl_nil]
    · rw [parseParams, if_neg hp, takeWhile_cons_of_pos (by simpa using hp), foldl_cons, ih]
      rfl

theorem tables_eq (sChanPrefixes : CString) (lines : List CMessage) :
    tables sChanPrefixes lines = (lines.flatMap readTokens).foldl readToken (initial sChanPrefixes) := by
  unfold tables
  induction lines using List.reverseRecOn with
  | nil => rfl
  | append_singleton lines m ih =>
    rw [foldl_concat, ih, flatMap_append, foldl_append, flatMap_singleton]
    exact parseParams_eq _ _

/-- `sParam` is the last token with the name `sName` in these lines -/
def Advertised (lines : List CMessage) (sName sParam : CString) : Prop :=
  ∃ earlier later, lines.flatMap readTokens = earlier ++ sParam :: later ∧ ∀ p ∈ later, (nameOf p).equals sName = false

theorem advertised_field {β : Type} (f : ServerTables → β) {sName : CString}
    (hother : ∀ t sName' sValue, sName'.equals sName = false → f (t.setToken sName' sValue) = f t)
    {lines : List CMessage} {sParam : CString} (h : Advertised lines sName sParam) (sChanPrefixes : CString) :
    ∃ t, f (tables sChanPrefixes lines) = f (readToken t sParam) := by
  obtain ⟨earlier, later, htok, hlater⟩ := h
  refine ⟨earlier.foldl readToken (initial sChanPrefixes), ?_⟩
  rw [tables_eq, htok, foldl_append, foldl_cons]
  generalize readToken _ sParam = t
  clear htok
  induction later generalizing t with
  | nil => rfl
  | cons p later ih =>
    rw [foldl_cons, ih (fun q hq => hlater q (mem_cons_of_mem _ hq))]
    exact hother t _ _ (hlater p mem_cons_self)

theorem setToken_chanModes (sName sValue : CString) (h : sName.equals (lit "CHANMODES") = false) :
    (t.setToken sName sValue).mceChanModes = t.mceChanModes := by
  unfold setToken
  simp only [h, Bool.false_eq_true, if_false]
  split_ifs <;> rfl

theorem setToken_perms (sName sValue : CString) (h : sName.equals (lit "PREFIX") = false) :
    (t.setToken sName sValue).sPerms = t.sPerms ∧ (t.setToken sName sValue).sPermModes = t.sPermModes := by
  unfold setToken
  simp only [h, Bool.false_eq_true, if_false]
  split_ifs <;> exact ⟨rfl, rfl⟩

theorem setToken_length (sName sValue : CString) (h : t.sPermModes.length = t.sPerms.length) :
    (t.setToken sName sValue).sPermModes.length = (t.setToken sName sValue).sPerms.length := by
  by_cases hname : sName.equals (lit "PREFIX") = true
  · unfold setToken
    simp only [hname, if_true]
    split_ifs with hsize
    · exact hsize.2
    · exact h
  · obtain ⟨h1, h2⟩ := setToken_perms t sName sValue (by simpa using hname)
    rw [h1, h2, h]

theorem permTables_length (sChanPrefixes : CString) (lines : List CMessage) :
    (tables sChanPrefixes lines).sPermModes.length = (tables sChanPrefixes lines).sPerms.length := by
  rw [tables_eq]
  induction lines.flatMap readTokens using List.reverseRecOn with
  | nil => rfl
  | append_singleton toks p ih =>
    rw [foldl_concat]
    exact setToken_length _ _ _ ih

end ServerTables

end ZNC
