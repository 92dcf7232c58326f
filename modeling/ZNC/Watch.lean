/-
The list of `modules/watch.cpp`: how it is saved, and the commands that Dump prints.

An entry is made of a host mask, a target and a pattern, with `*` for what the mask does not say. It is saved as the key
of a registry, and Dump prints it as the commands that bring it; both are read back through the constructor, which
reads the mask as a nick again and so takes one more colon off its front.

Model: a line has no newline. The registry keeps a key as it is (`ZNC.Registry`). Help, List and what the module copies
of the traffic only read the list.

Results:
- `reloads_iff`: the lists of which this holds;
- `onCommand_dump`: the commands of Dump bring the list again;
- `watch_iff`: the runs in which every list is loaded as it was saved, and dumped so that it comes back;
- `watch_two_colons`: a mask that is loaded without its colon.
-/
import ZNC.ConfigForms
import ZNC.ModuleLine
import ZNC.UserConfig
import ZNC.Lib.Runs

namespace ZNC.Watch

open CString Words ModuleLine NetworkClone List

/-! ## Model -/

abbrev OneLine : Type := { s : CString // ch '\n' ∉ s }

structure CWatchSource where
  m_sSource : CString
  m_bNegated : Bool
deriving DecidableEq

structure CWatchEntry where
  m_sHostMask : CString
  m_sTarget : CString
  m_sPattern : CString
  m_bDisabled : Bool
  m_bDetachedClientOnly : Bool
  m_bDetachedChannelOnly : Bool
  m_vsSources : List CWatchSource
deriving DecidableEq

namespace CWatchSource

/-- a word of `SetSources` -/
def ofWord (w : CString) : CWatchSource :=
  if w.head? = some (ch '!') ∧ 1 < w.length then ⟨w.drop 1, true⟩ else ⟨w, false⟩

def toWord (c : CWatchSource) : CString := (if c.m_bNegated then lit "!" else []) ++ c.m_sSource

end CWatchSource

open CWatchSource

/-- `*` for an empty part -/
def orStar (s : CString) : CString := if s ≠ [] then s else lit "*"

def maskOf (Nick : CNick) : CString :=
  orStar Nick.sNick ++ lit "!" ++ orStar Nick.sIdent ++ lit "@" ++ orStar Nick.sHost

namespace CWatchEntry

def new (sHostMask sTarget sPattern : CString) : CWatchEntry :=
  let Nick := CNick.empty.parse sHostMask
  ⟨maskOf Nick, if sTarget ≠ [] then sTarget else lit "$" ++ Nick.sNick, orStar sPattern, false, false, false, []⟩

/-- `operator==` -/
def same (e e' : CWatchEntry) : Bool :=
  e.m_sHostMask.equals e'.m_sHostMask && e.m_sTarget.equals e'.m_sTarget && e.m_sPattern.equals e'.m_sPattern

def getSourcesStr (e : CWatchEntry) : CString := join (lit " ") (e.m_vsSources.map toWord)

def setSources (e : CWatchEntry) (sSources : CString) : CWatchEntry :=
  { e with m_vsSources := (sSources.split (ch ' ') false).map ofWord }

/-- the key under which `Save` keeps an entry -/
def saved (e : CWatchEntry) : CString :=
  e.m_sHostMask ++ lit "\n" ++ e.m_sTarget ++ lit "\n" ++ e.m_sPattern ++ lit "\n" ++
    (if e.m_bDisabled then lit "disabled\n" else lit "enabled\n") ++ boolText e.m_bDetachedClientOnly ++ lit "\n" ++
    boolText e.m_bDetachedChannelOnly ++ lit "\n" ++ e.getSourcesStr ++ lit " "

/-- what `OnLoad` makes of a key; there is an older form of it -/
def load (sKey : CString) : Option CWatchEntry :=
  match sKey.split (ch '\n') true with
  | [sHostMask, sTarget, sPattern, sDisabled, sSources] =>
    some ({ new sHostMask sTarget sPattern with m_bDisabled := sDisabled.equals (lit "disabled") }.setSources sSources)
  | [sHostMask, sTarget, sPattern, sDisabled, sClient, sChannel, sSources] =>
    some ({ new sHostMask sTarget sPattern with
      m_bDisabled := sDisabled.equals (lit "disabled")
      m_bDetachedClientOnly := sClient.toBool
      m_bDetachedChannelOnly := sChannel.toBool }.setSources sSources)
  | _ => none

end CWatchEntry

structure CWatcherMod where
  m_lsWatchers : List CWatchEntry
  m_mssRegistry : MCString
  /-- the lines of `PutModule` and `PutModNotice` -/
  vsModule : VCString

namespace CWatcherMod

/-- the module of a network that has none yet -/
def init : CWatcherMod := ⟨[], .empty, []⟩

def putModule (s : CWatcherMod) (sLine : CString) : CWatcherMod := { s with vsModule := s.vsModule ++ [sLine] }

def save (s : CWatcherMod) : CWatcherMod :=
  { s with m_mssRegistry := s.m_lsWatchers.foldl (fun m e => m.insert e.saved []) .empty }

/-- `OnLoad`: the module, and the warning -/
def onLoad (m_mssRegistry : MCString) : CWatcherMod × CString :=
  let loaded := m_mssRegistry.keys.map CWatchEntry.load
  (⟨loaded.filterMap id, m_mssRegistry, []⟩,
    if none ∈ loaded then lit "WARNING: malformed entry found while loading" else [])

/-- a number, or `*` for all -/
def index (sTok : CString) : UInt32 := if sTok = lit "*" then 0xFFFFFFFF else sTok.toUInt

/-- one entry by its number, as the commands find it -/
def withEntry (s : CWatcherMod) (uIdx : UInt32) (f : ℕ → CWatcherMod) : CWatcherMod :=
  if s.m_lsWatchers.length ≤ (uIdx - 1).toNat then s.putModule (lit "Invalid Id") else f (uIdx - 1).toNat

/-- a flag of one entry or of all -/
def setFlag (s : CWatcherMod) (uIdx : UInt32) (set : CWatchEntry → CWatchEntry) (sAll sOne : CString) : CWatcherMod :=
  if uIdx = 0xFFFFFFFF then ({ s with m_lsWatchers := s.m_lsWatchers.map set }.putModule sAll).save
  else s.withEntry uIdx fun i =>
    ({ s with m_lsWatchers := s.m_lsWatchers.modify i set }.putModule
      (lit "Id " ++ uintText uIdx.toNat ++ lit " " ++ sOne)).save

def setDisabled (s : CWatcherMod) (uIdx : UInt32) (bDisabled : Bool) : CWatcherMod :=
  s.setFlag uIdx (fun e => { e with m_bDisabled := bDisabled })
    (if bDisabled then lit "Disabled all entries." else lit "Enabled all entries.")
    (if bDisabled then lit "disabled" else lit "enabled")

def enable (s : CWatcherMod) (sLine : CString) : CWatcherMod := s.setDisabled (index (tok sLine 1)) false

def disable (s : CWatcherMod) (sLine : CString) : CWatcherMod := s.setDisabled (index (tok sLine 1)) true

def setDetachedClientOnly (s : CWatcherMod) (sLine : CString) : CWatcherMod :=
  let b := (tok sLine 2).toBool
  s.setFlag (index (tok sLine 1)) (fun e => { e with m_bDetachedClientOnly := b })
    (if b then lit "Set DetachedClientOnly for all entries to Yes"
      else lit "Set DetachedClientOnly for all entries to No")
    (if b then lit "set to Yes" else lit "set to No")

def setDetachedChannelOnly (s : CWatcherMod) (sLine : CString) : CWatcherMod :=
  let b := (tok sLine 2).toBool
  s.setFlag (index (tok sLine 1)) (fun e => { e with m_bDetachedChannelOnly := b })
    (if b then lit "Set DetachedChannelOnly for all entries to Yes"
      else lit "Set DetachedChannelOnly for all entries to No")
    (if b then lit "set to Yes" else lit "set to No")

def setSources (s : CWatcherMod) (sLine : CString) : CWatcherMod :=
  let uIdx := (tok sLine 1).toUInt
  s.withEntry uIdx fun i =>
    ({ s with m_lsWatchers := s.m_lsWatchers.modify i fun e => e.setSources (rest sLine 2) }.putModule
      (lit "Sources set for Id " ++ uintText uIdx.toNat ++ lit ".")).save

def clear (s : CWatcherMod) : CWatcherMod := ({ s with m_lsWatchers := [] }.putModule (lit "All entries cleared.")).save

/-- the command Del -/
def remove (s : CWatcherMod) (sLine : CString) : CWatcherMod :=
  let uIdx := (tok sLine 1).toUInt
  s.withEntry uIdx fun i =>
    ({ s with m_lsWatchers := s.m_lsWatchers.eraseIdx i }.putModule
      (lit "Id " ++ uintText uIdx.toNat ++ lit " removed.")).save

/-- the command Add -/
def watch (s : CWatcherMod) (sLine : CString) : CWatcherMod :=
  if tok sLine 1 ≠ [] then
    let WatchEntry := CWatchEntry.new (tok sLine 1) (tok sLine 2) (rest sLine 3)
    if ∃ e ∈ s.m_lsWatchers, e.same WatchEntry then
      (s.putModule (lit "Entry for " ++ WatchEntry.m_sHostMask ++ lit " already exists.")).save
    else
      ({ s with m_lsWatchers := s.m_lsWatchers ++ [WatchEntry] }.putModule
        (lit "Adding entry: " ++ WatchEntry.m_sHostMask ++ lit " watching for [" ++ WatchEntry.m_sPattern ++
          lit "] -> " ++ WatchEntry.m_sTarget)).save
  else (s.putModule (lit "Watch: Not enough arguments.  Try Help")).save

/-- what Dump prints of the entry with the number `uIdx` -/
def dumpEntry (sModNick : CString) (uIdx : UInt32) (e : CWatchEntry) : VCString :=
  let sMsg := lit "/msg " ++ sModNick
  [sMsg ++ lit " ADD " ++ e.m_sHostMask ++ lit " " ++ e.m_sTarget ++ lit " " ++ e.m_sPattern] ++
    (if e.getSourcesStr ≠ [] then [sMsg ++ lit " SETSOURCES " ++ uintText uIdx.toNat ++ lit " " ++ e.getSourcesStr]
      else []) ++
    (if e.m_bDisabled then [sMsg ++ lit " DISABLE " ++ uintText uIdx.toNat] else []) ++
    (if e.m_bDetachedClientOnly then [sMsg ++ lit " SETDETACHEDCLIENTONLY " ++ uintText uIdx.toNat ++ lit " TRUE"]
      else []) ++
    if e.m_bDetachedChannelOnly then [sMsg ++ lit " SETDETACHEDCHANNELONLY " ++ uintText uIdx.toNat ++ lit " TRUE"]
      else []

def dumpLoop (sModNick : CString) : UInt32 → List CWatchEntry → VCString
  | _, [] => []
  | uIdx, e :: es => dumpEntry sModNick uIdx e ++ dumpLoop sModNick (uIdx + 1) es

def dump (s : CWatcherMod) (sModNick : CString) : VCString :=
  if s.m_lsWatchers = [] then [lit "You have no entries."]
  else [lit "---------------", lit "/msg " ++ sModNick ++ lit " CLEAR"] ++ dumpLoop sModNick 1 s.m_lsWatchers ++
    [lit "---------------"]

/-- `HandleCommand`; the commands that only print leave the module as it is -/
def onModCommand (s : CWatcherMod) (sLine : CString) : CWatcherMod :=
  let sCmd := tok sLine 0
  if (lit "Add").equals sCmd then s.watch sLine
  else if (lit "Clear").equals sCmd then s.clear
  else if (lit "Del").equals sCmd then s.remove sLine
  else if (lit "Disable").equals sCmd then s.disable sLine
  else if (lit "Enable").equals sCmd then s.enable sLine
  else if (lit "SetDetachedChannelOnly").equals sCmd then s.setDetachedChannelOnly sLine
  else if (lit "SetDetachedClientOnly").equals sCmd then s.setDetachedClientOnly sLine
  else if (lit "SetSources").equals sCmd then s.setSources sLine
  else s

end CWatcherMod

open CWatcherMod

def exec (s : CWatcherMod) (sLine : OneLine) : CWatcherMod := s.onModCommand sLine.1

/-! ## Statement -/

/-- `OnLoad` brings the entries, and no others -/
def Reloads (s : CWatcherMod) : Prop :=
  ∀ e, e ∈ (onLoad s.m_mssRegistry).1.m_lsWatchers ↔ e ∈ s.m_lsWatchers

/-- the command of a line that Dump prints -/
def typed (sModNick sLine : CString) : Option CString :=
  if lit "/msg " ++ sModNick ++ lit " " <+: sLine then some (sLine.drop (lit "/msg " ++ sModNick ++ lit " ").length)
  else none

/-- the commands that Dump prints bring the entries, in their order -/
def Dumps (sModNick : CString) (s : CWatcherMod) : Prop :=
  (((s.dump sModNick).filterMap (typed sModNick)).foldl onModCommand .init).m_lsWatchers = s.m_lsWatchers

/-- the entry that an Add brings -/
def added (sLine : CString) : CWatchEntry := .new (tok sLine 1) (tok sLine 2) (rest sLine 3)

/-- an Add that brings an entry -/
structure Brings (s : CWatcherMod) (sLine : CString) : Prop where
  name : (lit "Add").equals (tok sLine 0) = true
  mask : tok sLine 1 ≠ []
  new : ∀ e ∈ s.m_lsWatchers, e.same (added sLine) = false

/-- a new entry has no NUL in it, and no two colons in front -/
def Meets (s : CWatcherMod) (sLine : OneLine) : Prop :=
  Brings s sLine.1 → (0 : UInt8) ∉ rest sLine.1 1 ∧ ¬lit "::" <+: tok sLine.1 1

/-- the numbers of the entries fit, and none is that of all -/
def Numbered (s : CWatcherMod) : Prop := s.m_lsWatchers.length + 1 < 2 ^ 32

/-! ## Masks -/

theorem orStar_ne (s : CString) : orStar s ≠ [] := by
  unfold orStar
  split
  · assumption
  · decide

theorem orStar_eq_self {s : CString} (h : s ≠ []) : orStar s = s := if_pos h

variable {c : UInt8} (sModNick : CString)

theorem mem_orStar (hc : c ≠ ch '*') (s : CString) : c ∈ orStar s ↔ c ∈ s := by
  have hstar : lit "*" = [ch '*'] := rfl
  unfold orStar
  split
  · rfl
  · rename_i hnil
    rw [not_not.1 hnil, hstar, mem_singleton]
    exact iff_of_false hc not_mem_nil

theorem mem_chompColon (hc : c ≠ ch ':') (s : CString) : c ∈ CNick.chompColon s ↔ c ∈ s := by
  unfold CNick.chompColon
  cases s with
  | nil => simp
  | cons a t =>
    by_cases ha : a = ch ':'
    · simp [ha, hc]
    · simp [ha]

/-- a nick whose mask is read as it is written -/
structure Parted (Nick : CNick) : Prop where
  nick : ch '!' ∉ Nick.sNick
  ident : ch '@' ∉ Nick.sIdent

theorem parse_parted (m : CString) : Parted (CNick.empty.parse m) := by
  have hnone : Parted CNick.empty := ⟨not_mem_nil, not_mem_nil⟩
  unfold CNick.parse
  split
  · exact hnone
  · split
    · rename_i hcut
      exact ⟨fun h => cut_eq_none hcut ((mem_chompColon (by decide) m).1 h), not_mem_nil⟩
    · rename_i sNick sHost hcut
      have hnick : ch '!' ∉ CNick.chompColon sNick := fun h =>
        (cut_eq_some hcut).2 ((mem_chompColon (by decide) sNick).1 h)
      split
      · exact ⟨hnick, not_mem_nil⟩
      · rename_i hcut'
        exact ⟨hnick, (cut_eq_some hcut').2⟩

theorem mem_parse (hbang : c ≠ ch '!') (hat : c ≠ ch '@') (hcolon : c ≠ ch ':') (m : CString) :
    c ∈ m ↔ c ∈ (CNick.empty.parse m).sNick ∨ c ∈ (CNick.empty.parse m).sIdent ∨ c ∈ (CNick.empty.parse m).sHost := by
  unfold CNick.parse
  split
  · rename_i hnil
    simp [hnil, CNick.empty]
  · split
    · simp [mem_chompColon hcolon, CNick.empty]
    · rename_i sNick sHost hcut
      rw [(cut_eq_some hcut).1]
      split
      · simp [mem_chompColon hcolon, hbang, CNick.empty]
      · rename_i sIdent sHost' hcut'
        rw [(cut_eq_some hcut').1]
        simp [mem_chompColon hcolon, hbang, hat]

theorem mem_maskOf (hbang : c ≠ ch '!') (hat : c ≠ ch '@') (hstar : c ≠ ch '*') (Nick : CNick) :
    c ∈ maskOf Nick ↔ c ∈ Nick.sNick ∨ c ∈ Nick.sIdent ∨ c ∈ Nick.sHost := by
  have hone : lit "!" = [ch '!'] ∧ lit "@" = [ch '@'] := ⟨rfl, rfl⟩
  simp [maskOf, hone.1, hone.2, mem_orStar hstar, hbang, hat]

theorem mem_mask {c : UInt8} (hbang : c ≠ ch '!') (hat : c ≠ ch '@') (hcolon : c ≠ ch ':') (hstar : c ≠ ch '*')
    (m : CString) : c ∈ maskOf (CNick.empty.parse m) ↔ c ∈ m := by
  rw [mem_maskOf hbang hat hstar, ← mem_parse hbang hat hcolon]

/-- **A mask that is read again** loses a colon in front. -/
theorem parse_maskOf {Nick : CNick} (h : Parted Nick) : CNick.empty.parse (maskOf Nick) =
    ⟨CNick.chompColon (orStar Nick.sNick), orStar Nick.sIdent, orStar Nick.sHost⟩ := by
  have hmask : maskOf Nick = orStar Nick.sNick ++ ch '!' :: (orStar Nick.sIdent ++ ch '@' :: orStar Nick.sHost) := by
    simp only [maskOf, append_assoc]
    rfl
  rw [hmask]
  exact CNick.parse_full _ (fun hm => h.nick ((mem_orStar (by decide) _).1 hm))
    (fun hm => h.ident ((mem_orStar (by decide) _).1 hm)) _

theorem head_maskOf (Nick : CNick) : (maskOf Nick).head? = (orStar Nick.sNick).head? := by
  simp only [maskOf, append_assoc]
  exact head?_append_of_ne_nil _ (orStar_ne _)

/-- **A mask without a colon in front** is read as it is written; with one it gets shorter, or loses the colon. -/
theorem mask_again {Nick : CNick} (h : Parted Nick) :
    ((maskOf Nick).head? ≠ some (ch ':') → maskOf (CNick.empty.parse (maskOf Nick)) = maskOf Nick) ∧
      ((maskOf Nick).head? = some (ch ':') → (maskOf (CNick.empty.parse (maskOf Nick))).head? = some (ch ':') →
        (maskOf (CNick.empty.parse (maskOf Nick))).length < (maskOf Nick).length) := by
  rw [parse_maskOf h, head_maskOf]
  have hagain : ∀ s, orStar (orStar s) = orStar s := fun s => orStar_eq_self (orStar_ne s)
  refine ⟨fun hhead => ?_, fun hhead hstill => ?_⟩
  · rw [CNick.chompColon_eq_self hhead, maskOf, hagain, hagain, hagain]
    rfl
  · rw [head_maskOf] at hstill
    obtain ⟨t, ht⟩ : ∃ t, orStar Nick.sNick = ch ':' :: t := ⟨_, (cons_head?_tail hhead).symm⟩
    have hchomp : CNick.chompColon (orStar Nick.sNick) = t := by
      rw [ht]
      rfl
    rw [hchomp] at hstill ⊢
    have hstar : ¬(orStar []).head? = some (ch ':') := by decide
    have hne : t ≠ [] := fun hnil => hstar (hnil ▸ hstill)
    simp only [maskOf, orStar_eq_self hne, hagain, ht, length_append, length_cons]
    omega

theorem head_chompColon (s : CString) : (CNick.chompColon s).head? = some (ch ':') ↔ lit "::" <+: s := by
  have hlit : lit "::" = [ch ':', ch ':'] := rfl
  unfold CNick.chompColon
  rw [hlit]
  cases s with
  | nil => simp
  | cons a t =>
    by_cases ha : a = ch ':'
    · rw [if_pos (by rw [ha]; rfl), ha, cons_prefix_cons, drop_succ_cons, drop_zero]
      cases t <;> simp [eq_comm]
    · rw [if_neg (by simpa using ha), head?_cons, Option.some_inj, cons_prefix_cons]
      exact iff_of_false ha fun h => ha h.1.symm

/-- **The colons in front of a text**, of which the mask has all but one. -/
theorem head_mask_iff (m : CString) :
    (maskOf (CNick.empty.parse m)).head? = some (ch ':') ↔ lit "::" <+: m := by
  have hstar : ∀ s, (orStar s).head? = some (ch ':') ↔ s.head? = some (ch ':') := by
    intro s
    unfold orStar
    split
    · rfl
    · rename_i hnil
      rw [not_not.1 hnil]
      decide
  rw [head_maskOf, hstar]
  unfold CNick.parse
  split
  · rename_i hnil
    rw [hnil]
    decide
  · split
    · exact head_chompColon m
    · rename_i sNick sHost hcut
      obtain ⟨rfl, hno⟩ := cut_eq_some hcut
      have hfront : lit "::" <+: sNick ++ ch '!' :: sHost ↔ lit "::" <+: sNick := by
        have hbang : ch ':' ≠ ch '!' := by decide
        have hlit : lit "::" = [ch ':', ch ':'] := rfl
        rw [hlit]
        -- neither of the two bytes is the '!'
        rcases sNick with _ | ⟨a, _ | ⟨b, t⟩⟩ <;> simp [cons_prefix_cons, hbang]
      split <;> rw [hfront] <;> exact head_chompColon sNick

/-! ## Sources -/

theorem toWord_ofWord (w : CString) : (ofWord w).toWord = w := by
  unfold ofWord toWord
  split
  · rename_i hneg
    have hcons : ch '!' :: w.tail = w := cons_head?_tail hneg.1
    rw [← drop_one] at hcons
    exact hcons
  · rfl

/-- the words that `Split` leaves -/
def SourceWord (w : CString) : Prop := w ≠ [] ∧ ch ' ' ∉ w ∧ (0 : UInt8) ∉ w ∧ ch '\n' ∉ w

theorem splitLoop_end (c : UInt8) (p sTmp : CString) : splitLoop c false sTmp (p ++ [c]) = splitLoop c false sTmp p := by
  induction p generalizing sTmp with
  | nil => by_cases hTmp : sTmp = [] <;> simp [splitLoop, hTmp]
  | cons a p ih => rw [cons_append, splitLoop, splitLoop, ih, ih]

/-- **Sources are read back**, also with a space behind them. -/
theorem split_sources {vs : List CWatchSource} (h : ∀ c ∈ vs, ∃ w, SourceWord w ∧ c = .ofWord w) (b : Bool) :
    ((join (lit " ") (vs.map toWord) ++ if b then lit " " else []).split (ch ' ') false).map
      ofWord = vs := by
  have hwords : ∀ c ∈ vs, SourceWord c.toWord ∧ ofWord c.toWord = c := fun c hc => by
    obtain ⟨w, hw, rfl⟩ := h c hc
    rw [toWord_ofWord]
    exact ⟨hw, rfl⟩
  have hjoin : (join (lit " ") (vs.map toWord)).split (ch ' ') false = vs.map toWord := by
    refine split_join (by decide) ?_
    rw [forall_mem_map]
    exact fun c hc => ⟨(hwords c hc).1.1, (hwords c hc).1.2.1, (hwords c hc).1.2.2.1⟩
  have hnul : (0 : UInt8) ∉ join (lit " ") (vs.map toWord) := by
    refine not_mem_join (by decide) ?_
    rw [forall_mem_map]
    exact fun c hc => (hwords c hc).1.2.2.1
  have hsplit : (join (lit " ") (vs.map toWord) ++ if b then lit " " else []).split (ch ' ') false =
      vs.map toWord := by
    cases b with
    | false => rw [if_neg Bool.false_ne_true, append_nil, hjoin]
    | true =>
      have hspace : (lit " ").cStr = [ch ' '] := by decide
      rw [if_pos rfl, split, cStr_append hnul, hspace, splitLoop_end]
      rw [split, cStr_eq_self hnul] at hjoin
      exact hjoin
  rw [hsplit, map_map]
  exact (map_congr_left fun c hc => (hwords c hc).2).trans (map_id vs)

/-! ## Entries -/

/-- what every entry is like -/
structure Sound (e : CWatchEntry) : Prop where
  mask : ∃ Nick : CNick, Parted Nick ∧ e.m_sHostMask = maskOf Nick
  target : e.m_sTarget ≠ []
  pattern : e.m_sPattern ≠ [] ∧ e.m_sPattern.head? ≠ some (ch ' ')
  spaces : ch ' ' ∉ e.m_sHostMask ∧ ch ' ' ∉ e.m_sTarget
  line : ch '\n' ∉ e.m_sHostMask ∧ ch '\n' ∉ e.m_sTarget ∧ ch '\n' ∉ e.m_sPattern
  sources : ∀ c ∈ e.m_vsSources, ∃ w, SourceWord w ∧ c = .ofWord w

/-- what can be loaded -/
def Plain (e : CWatchEntry) : Prop :=
  (0 : UInt8) ∉ e.m_sHostMask ∧ (0 : UInt8) ∉ e.m_sTarget ∧ (0 : UInt8) ∉ e.m_sPattern

/-- the entry with its mask read again -/
def again (e : CWatchEntry) : CWatchEntry := { e with m_sHostMask := maskOf (CNick.empty.parse e.m_sHostMask) }

variable {s : CWatcherMod} {e : CWatchEntry}

theorem sources_getSourcesStr (h : Sound e) (e' : CWatchEntry) (b : Bool) :
    e'.setSources (e.getSourcesStr ++ if b then lit " " else []) = { e' with m_vsSources := e.m_vsSources } := by
  rw [CWatchEntry.setSources, CWatchEntry.getSourcesStr, split_sources h.sources]

theorem new_parts (h : Sound e) : CWatchEntry.new e.m_sHostMask e.m_sTarget e.m_sPattern =
    ⟨(again e).m_sHostMask, e.m_sTarget, e.m_sPattern, false, false, false, []⟩ := by
  rw [CWatchEntry.new, if_pos h.target, orStar_eq_self h.pattern.1]
  rfl

theorem saved_eq_join (e : CWatchEntry) : e.saved = join [ch '\n'] [e.m_sHostMask, e.m_sTarget, e.m_sPattern,
    if e.m_bDisabled then lit "disabled" else lit "enabled", boolText e.m_bDetachedClientOnly,
    boolText e.m_bDetachedChannelOnly, e.getSourcesStr ++ lit " "] := by
  have hstate : (if e.m_bDisabled then lit "disabled\n" else lit "enabled\n") =
      (if e.m_bDisabled then lit "disabled" else lit "enabled") ++ [ch '\n'] := by
    split <;> rfl
  have hline : lit "\n" = [ch '\n'] := rfl
  simp only [CWatchEntry.saved, hstate, hline, join_cons, flatMap_cons, flatMap_nil, append_assoc, append_nil]

theorem getSourcesStr_clean (h : Sound e) :
    ch '\n' ∉ e.getSourcesStr ∧ (0 : UInt8) ∉ e.getSourcesStr := by
  have hwords : ∀ w ∈ e.m_vsSources.map toWord, SourceWord w := by
    rw [forall_mem_map]
    intro c hc
    obtain ⟨w, hw, rfl⟩ := h.sources c hc
    rwa [toWord_ofWord]
  refine ⟨not_mem_join (by decide) fun w hw => (hwords w hw).2.2.2, ?_⟩
  exact not_mem_join (by decide) fun w hw => (hwords w hw).2.2.1

theorem load_saved (h : Sound e) (hplain : Plain e) : CWatchEntry.load e.saved = some (again e) := by
  have hbool : ∀ b, boolText b ≠ [] ∧ ch '\n' ∉ boolText b ∧ (0 : UInt8) ∉ boolText b := by decide
  have hstate : ∀ b : Bool, (if b then lit "disabled" else lit "enabled") ≠ [] ∧
      (ch '\n' ∉ if b then lit "disabled" else lit "enabled") ∧
      ((0 : UInt8) ∉ if b then lit "disabled" else lit "enabled") ∧
      (if b then lit "disabled" else lit "enabled").equals (lit "disabled") = b := by decide
  have hsources : e.getSourcesStr ++ lit " " ≠ [] ∧ ch '\n' ∉ e.getSourcesStr ++ lit " " ∧
      (0 : UInt8) ∉ e.getSourcesStr ++ lit " " := by
    have hspace : ch '\n' ∉ lit " " ∧ (0 : UInt8) ∉ lit " " := by decide
    rw [mem_append, mem_append, not_or, not_or]
    refine ⟨append_ne_nil_of_right_ne_nil _ (by decide), ?_, ?_⟩
    · exact ⟨(getSourcesStr_clean h).1, hspace.1⟩
    · exact ⟨(getSourcesStr_clean h).2, hspace.2⟩
  have hmask : e.m_sHostMask ≠ [] := by
    obtain ⟨Nick, -, heq⟩ := h.mask
    rw [heq, maskOf]
    simp [orStar_ne]
  have hsplit : e.saved.split (ch '\n') true = [e.m_sHostMask, e.m_sTarget, e.m_sPattern,
      if e.m_bDisabled then lit "disabled" else lit "enabled", boolText e.m_bDetachedClientOnly,
      boolText e.m_bDetachedChannelOnly, e.getSourcesStr ++ lit " "] := by
    rw [saved_eq_join]
    refine split_join (by decide) ?_
    simp only [forall_mem_cons]
    refine ⟨⟨hmask, h.line.1, hplain.1⟩, ⟨h.target, h.line.2.1, hplain.2.1⟩, ⟨h.pattern.1, h.line.2.2, hplain.2.2⟩,
      ⟨(hstate _).1, (hstate _).2.1, (hstate _).2.2.1⟩, hbool _, hbool _, hsources, ?_⟩
    exact fun w hw => nomatch hw
  rw [CWatchEntry.load, hsplit]
  simp only [new_parts h, (hstate _).2.2.2, UserConfig.toBool_boolText]
  exact congrArg some (sources_getSourcesStr h _ true)

theorem length_splitLoop_le (c : UInt8) (b : Bool) (p sTmp : CString) :
    (splitLoop c b sTmp p).length ≤ p.count c + 1 := by
  induction p generalizing sTmp with
  | nil =>
    rw [splitLoop]
    split <;> simp
  | cons a p ih =>
    rw [splitLoop]
    by_cases ha : a = c
    · rw [if_pos ha, ha, count_cons_self]
      have hnil := ih []
      split
      · rw [length_cons]
        omega
      · omega
    · rw [if_neg ha, count_cons_of_ne ha]
      exact ih _

/-- **An entry with a NUL** is not loaded. -/
theorem load_not_plain (h : Sound e) (hplain : ¬Plain e) : CWatchEntry.load e.saved = none := by
  set sFront := e.m_sHostMask ++ ch '\n' :: (e.m_sTarget ++ ch '\n' :: e.m_sPattern) with hfront
  have hsaved : ∃ sRest, e.saved = sFront ++ sRest := by
    rw [saved_eq_join, join_cons, hfront]
    simp only [flatMap_cons, append_assoc, cons_append]
    exact ⟨_, rfl⟩
  obtain ⟨sRest, hsaved⟩ := hsaved
  have hnul : (0 : UInt8) ∈ sFront := by
    by_contra hno
    simp only [hfront, mem_append, mem_cons, not_or] at hno
    exact hplain ⟨hno.1, hno.2.2.1, hno.2.2.2.2⟩
  -- the C string ends within the first three parts
  have hcount : (e.saved.cStr).count (ch '\n') ≤ 2 := by
    have hle : sFront.cStr.count (ch '\n') ≤ sFront.count (ch '\n') := (takeWhile_sublist _).count_le _
    have htwo : sFront.count (ch '\n') = 2 := by
      simp [hfront, count_eq_zero.2 h.line.1, count_eq_zero.2 h.line.2.1, count_eq_zero.2 h.line.2.2]
    rw [hsaved, cStr_append_of_mem hnul]
    omega
  have hlen : (e.saved.split (ch '\n') true).length ≤ 3 := (length_splitLoop_le _ _ _ _).trans (by omega)
  rw [CWatchEntry.load]
  split
  · rename_i heq
    simp [heq] at hlen
  · rename_i heq
    simp [heq] at hlen
  · rfl

/-! ## Lists -/

/-- what holds of the module after every command -/
structure Inv (s : CWatcherMod) : Prop where
  sound : ∀ e ∈ s.m_lsWatchers, Sound e
  differ : s.m_lsWatchers.Pairwise fun e e' => e.same e' = false
  saved : s.m_mssRegistry = s.save.m_mssRegistry

/-- an entry that is loaded as it was saved -/
def Keeps (e : CWatchEntry) : Prop := Plain e ∧ e.m_sHostMask.head? ≠ some (ch ':')

theorem again_eq_self (h : Sound e) (hhead : e.m_sHostMask.head? ≠ some (ch ':')) : again e = e := by
  obtain ⟨Nick, hparted, hmask⟩ := h.mask
  rw [hmask] at hhead
  rw [again, hmask, (mask_again hparted).1 hhead, ← hmask]

theorem again_shorter (h : Sound e) (hhead : e.m_sHostMask.head? = some (ch ':'))
    (hstill : (again e).m_sHostMask.head? = some (ch ':')) :
    (again e).m_sHostMask.length < e.m_sHostMask.length := by
  obtain ⟨Nick, hparted, hmask⟩ := h.mask
  rw [again, hmask] at hstill ⊢
  rw [hmask] at hhead
  exact (mask_again hparted).2 hhead hstill

theorem again_plain (h : Plain e) : Plain (again e) :=
  ⟨fun hm => h.1 ((mem_mask (by decide) (by decide) (by decide) (by decide) _).1 hm), h.2⟩

theorem mem_onLoad (h : Inv s) (e : CWatchEntry) :
    e ∈ (onLoad s.m_mssRegistry).1.m_lsWatchers ↔ ∃ e' ∈ s.m_lsWatchers, Plain e' ∧ again e' = e := by
  rw [h.saved, onLoad]
  simp only [mem_filterMap, mem_map, id]
  have hkeys : ∀ k, k ∈ s.save.m_mssRegistry.keys ↔ ∃ e' ∈ s.m_lsWatchers, e'.saved = k := fun k => by
    rw [save, OrdMap.mem_keys_foldl_insert, or_iff_right]
    exact not_mem_nil
  constructor
  · intro ⟨_, ⟨k, hk, hload⟩, hsome⟩
    obtain ⟨e', he', rfl⟩ := (hkeys k).1 hk
    by_cases hplain : Plain e'
    · rw [load_saved (h.sound e' he') hplain] at hload
      exact ⟨e', he', hplain, Option.some.inj (hload.trans hsome)⟩
    · rw [load_not_plain (h.sound e' he') hplain] at hload
      rw [← hload] at hsome
      cases hsome
  · intro ⟨e', he', hplain, heq⟩
    refine ⟨some e, ⟨e'.saved, (hkeys _).2 ⟨e', he', rfl⟩, ?_⟩, rfl⟩
    rw [load_saved (h.sound e' he') hplain, heq]

/-- **A list is loaded as it was saved** exactly if each of its entries is. -/
theorem reloads_iff (h : Inv s) : Reloads s ↔ ∀ e ∈ s.m_lsWatchers, Keeps e := by
  unfold Reloads
  simp only [mem_onLoad h]
  refine ⟨fun hall => ?_, fun hkeeps e => ⟨fun he => ?_, fun he => ?_⟩⟩
  · have hplain : ∀ e ∈ s.m_lsWatchers, Plain e := fun e he => by
      obtain ⟨e', -, hp, rfl⟩ := (hall e).2 he
      exact again_plain hp
    refine fun e he => ⟨hplain e he, fun hhead => ?_⟩
    -- of the masks with a colon in front, the longest one does not come back
    set colons := s.m_lsWatchers.filter fun e => e.m_sHostMask.head? = some (ch ':') with hcolons
    have hin : e ∈ colons.toFinset := by simpa [hcolons] using ⟨he, hhead⟩
    obtain ⟨x, hx, hmax⟩ := colons.toFinset.exists_max_image (fun e => e.m_sHostMask.length) ⟨e, hin⟩
    simp only [hcolons, mem_toFinset, mem_filter, decide_eq_true_eq] at hx hmax
    obtain ⟨y, hy, -, hyx⟩ := (hall x).2 hx.1
    by_cases hcolon : y.m_sHostMask.head? = some (ch ':')
    · have hlonger := again_shorter (h.sound y hy) hcolon (by rw [hyx]; exact hx.2)
      rw [hyx] at hlonger
      exact absurd (hmax y ⟨hy, hcolon⟩) (not_le.2 hlonger)
    · rw [again_eq_self (h.sound y hy) hcolon] at hyx
      exact hcolon (hyx ▸ hx.2)
  · obtain ⟨e', he', -, rfl⟩ := he
    rw [again_eq_self (h.sound e' he') (hkeeps e' he').2]
    exact he'
  · exact ⟨e, he, (hkeeps e he).1, again_eq_self (h.sound e he) (hkeeps e he).2⟩

/-! ## Commands -/

/-- the same mask, target and pattern, and again sources that can be read back -/
structure Alike (e e' : CWatchEntry) : Prop where
  mask : e'.m_sHostMask = e.m_sHostMask
  target : e'.m_sTarget = e.m_sTarget
  pattern : e'.m_sPattern = e.m_sPattern
  sources : (∀ c ∈ e.m_vsSources, ∃ w, SourceWord w ∧ c = .ofWord w) →
    ∀ c ∈ e'.m_vsSources, ∃ w, SourceWord w ∧ c = .ofWord w

theorem Alike.refl (e : CWatchEntry) : Alike e e := ⟨rfl, rfl, rfl, fun h => h⟩

theorem Alike.sound {e e' : CWatchEntry} (h : Alike e e') (hs : Sound e) : Sound e' where
  mask := by rw [h.mask]; exact hs.mask
  target := by rw [h.target]; exact hs.target
  pattern := by rw [h.pattern]; exact hs.pattern
  spaces := by rw [h.mask, h.target]; exact hs.spaces
  line := by rw [h.mask, h.target, h.pattern]; exact hs.line
  sources := h.sources hs.sources

theorem Alike.keeps {e e' : CWatchEntry} (h : Alike e e') (hk : Keeps e) : Keeps e' := by
  unfold Keeps Plain at hk ⊢
  rw [h.mask, h.target, h.pattern]
  exact hk

/-- what a command other than a new Add does to the list -/
inductive Edit (l : List CWatchEntry) : List CWatchEntry → Prop where
  | fewer {l' : List CWatchEntry} (h : l'.Sublist l) : Edit l l'
  | alike {l' : List CWatchEntry} (h : List.Forall₂ Alike l l') : Edit l l'

theorem Edit.refl (l : List CWatchEntry) : Edit l l := .fewer (List.Sublist.refl l)

theorem Edit.forall_mem {l l' : List CWatchEntry} (h : Edit l l') {P : CWatchEntry → Prop}
    (hP : ∀ e e', Alike e e' → P e → P e') (hl : ∀ e ∈ l, P e) : ∀ e ∈ l', P e := by
  cases h with
  | fewer h => exact fun e he => hl e (h.subset he)
  | alike h =>
    induction h with
    | nil => exact hl
    | cons hab _ ih =>
      rw [forall_mem_cons] at hl ⊢
      exact ⟨hP _ _ hab hl.1, ih hl.2⟩

theorem same_congr {e e' x x' : CWatchEntry} (h : Alike e e') (hx : Alike x x') : e'.same x' = e.same x := by
  simp only [CWatchEntry.same, h.mask, h.target, h.pattern, hx.mask, hx.target, hx.pattern]

theorem Edit.differ {l l' : List CWatchEntry} (h : Edit l l') (hl : l.Pairwise fun e e' => e.same e' = false) :
    l'.Pairwise fun e e' => e.same e' = false := by
  cases h with
  | fewer h => exact hl.sublist h
  | alike h =>
    induction h with
    | nil => exact hl
    | @cons a b as bs hab hrest ih =>
      rw [pairwise_cons] at hl ⊢
      refine ⟨?_, ih hl.2⟩
      refine (Edit.alike hrest).forall_mem (P := fun e => b.same e = false) ?_ fun e he => ?_
      · exact fun e e' hee' he => by rw [same_congr (Alike.refl b) hee', he]
      · rw [same_congr hab (Alike.refl e), hl.1 e he]

theorem edit_map {set : CWatchEntry → CWatchEntry} (h : ∀ e, Alike e (set e)) (l : List CWatchEntry) :
    Edit l (l.map set) := by
  refine .alike ?_
  rw [forall₂_map_right_iff]
  exact forall₂_same.2 fun e _ => h e

theorem edit_modify {set : CWatchEntry → CWatchEntry} (h : ∀ e, Alike e (set e)) (l : List CWatchEntry) (i : ℕ) :
    Edit l (l.modify i set) := by
  refine .alike ?_
  induction l generalizing i with
  | nil => simp
  | cons a l ih =>
    cases i with
    | zero => exact .cons (h a) (forall₂_same.2 fun e _ => .refl e)
    | succ i => exact .cons (.refl a) (ih i)

/-- the registry has the texts of the list -/
def Saved (s : CWatcherMod) : Prop := s.m_mssRegistry = s.save.m_mssRegistry

/-- what a command has done -/
structure Does (s s' : CWatcherMod) : Prop where
  edit : Edit s.m_lsWatchers s'.m_lsWatchers
  saved : Saved s → Saved s'

theorem withEntry_does {uIdx : UInt32} {f : ℕ → CWatcherMod} (h : ∀ i, Does s (f i)) :
    Does s (s.withEntry uIdx f) := by
  unfold withEntry
  split
  · exact ⟨.refl _, fun hs => hs⟩
  · exact h _

theorem setFlag_does (s : CWatcherMod) (uIdx : UInt32) {set : CWatchEntry → CWatchEntry} (h : ∀ e, Alike e (set e))
    (sAll sOne : CString) : Does s (s.setFlag uIdx set sAll sOne) := by
  unfold setFlag
  split
  · exact ⟨edit_map h _, fun _ => rfl⟩
  · exact withEntry_does fun i => ⟨edit_modify h _ i, fun _ => rfl⟩

theorem setSources_alike {s : CString} (h : ch '\n' ∉ s) (e : CWatchEntry) : Alike e (e.setSources s) := by
  refine ⟨rfl, rfl, rfl, fun _ => ?_⟩
  change ∀ c ∈ (s.split (ch ' ') false).map ofWord, _
  rw [forall_mem_map]
  intro w hw
  obtain ⟨hspace, hnul, hne⟩ := mem_split hw
  exact ⟨w, ⟨hne rfl, hspace, hnul, fun hm => h (subset_of_mem_split hw hm)⟩, rfl⟩

theorem watch_cases (s : CWatcherMod) (sLine : CString) :
    (¬(tok sLine 1 ≠ [] ∧ ∀ e ∈ s.m_lsWatchers, e.same (added sLine) = false) ∧ Does s (s.watch sLine)) ∨
      ((tok sLine 1 ≠ [] ∧ ∀ e ∈ s.m_lsWatchers, e.same (added sLine) = false) ∧
        (s.watch sLine).m_lsWatchers = s.m_lsWatchers ++ [added sLine] ∧ Saved (s.watch sLine)) := by
  unfold watch
  by_cases htok : tok sLine 1 = []
  · rw [if_neg (not_not.2 htok)]
    exact .inl ⟨fun h => h.1 htok, .refl _, fun _ => rfl⟩
  · rw [if_pos htok, ← added]
    by_cases hsame : ∃ e ∈ s.m_lsWatchers, e.same (added sLine) = true
    · obtain ⟨e, he, heq⟩ := hsame
      simp only [if_pos (⟨e, he, heq⟩ : ∃ e ∈ s.m_lsWatchers, e.same (added sLine) = true)]
      exact .inl ⟨fun h => Bool.noConfusion ((h.2 e he).symm.trans heq), .refl _, fun _ => rfl⟩
    · simp only [if_neg hsame]
      exact .inr ⟨⟨htok, fun e he => Bool.eq_false_iff.2 fun heq => hsame ⟨e, he, heq⟩⟩, rfl, rfl⟩

/-- **What a command does**: an Add may bring an entry, and nothing else changes a mask, a target or a pattern. -/
theorem exec_cases (s : CWatcherMod) (sLine : OneLine) :
    (¬Brings s sLine.1 ∧ Does s (exec s sLine)) ∨
      (Brings s sLine.1 ∧ (exec s sLine).m_lsWatchers = s.m_lsWatchers ++ [added sLine.1] ∧ Saved (exec s sLine)) := by
  unfold exec onModCommand
  dsimp only
  by_cases hadd : (lit "Add").equals (tok sLine.1 0) = true
  · rw [if_pos hadd]
    rcases watch_cases s sLine.1 with ⟨hno, hdoes⟩ | ⟨hyes, hlist, hsaved⟩
    · exact .inl ⟨fun h => hno ⟨h.mask, h.new⟩, hdoes⟩
    · exact .inr ⟨⟨hadd, hyes.1, hyes.2⟩, hlist, hsaved⟩
  · rw [if_neg hadd]
    refine .inl ⟨fun h => hadd h.name, ?_⟩
    have hflag : ∀ e : CWatchEntry, ∀ b, Alike e { e with m_bDisabled := b } ∧
        Alike e { e with m_bDetachedClientOnly := b } ∧ Alike e { e with m_bDetachedChannelOnly := b } := fun e b =>
      ⟨⟨rfl, rfl, rfl, fun h => h⟩, ⟨rfl, rfl, rfl, fun h => h⟩, ⟨rfl, rfl, rfl, fun h => h⟩⟩
    have hline : ch '\n' ∉ rest sLine.1 2 := fun hm => sLine.2 (Config.token_subset _ 2 true (ch ' ') hm)
    split_ifs
    · exact ⟨.fewer (nil_sublist _), fun _ => rfl⟩
    · unfold remove
      refine withEntry_does fun i => ?_
      exact ⟨.fewer (eraseIdx_sublist _ i), fun _ => rfl⟩
    · exact setFlag_does s _ (fun e => (hflag e _).1) _ _
    · exact setFlag_does s _ (fun e => (hflag e _).1) _ _
    · exact setFlag_does s _ (fun e => (hflag e _).2.2) _ _
    · exact setFlag_does s _ (fun e => (hflag e _).2.1) _ _
    · unfold setSources
      refine withEntry_does fun i => ?_
      exact ⟨edit_modify (setSources_alike hline) _ i, fun _ => rfl⟩
    · exact ⟨.refl _, fun h => h⟩

/-! ## New entries -/

theorem mem_added_target (hbang : c ≠ ch '!') (hat : c ≠ ch '@') (hcolon : c ≠ ch ':') (hdollar : c ≠ ch '$')
    {sLine : CString} (h : c ∈ (added sLine).m_sTarget) : c ∈ tok sLine 1 ∨ c ∈ tok sLine 2 := by
  change c ∈ (if tok sLine 2 ≠ [] then tok sLine 2 else lit "$" ++ (CNick.empty.parse (tok sLine 1)).sNick) at h
  have hlit : lit "$" = [ch '$'] := rfl
  split at h
  · exact .inr h
  · rw [hlit, singleton_append, mem_cons] at h
    exact .inl ((mem_parse hbang hat hcolon _).2 (.inl (h.resolve_left hdollar)))

/-- **What an Add brings** is an entry that can be read back. -/
theorem added_sound {sLine : CString} (h : ch '\n' ∉ sLine) : Sound (added sLine) := by
  have htok : ∀ uPos, ch '\n' ∉ tok sLine uPos := fun uPos hm => h (Config.token_subset _ uPos false (ch ' ') hm)
  have hrest : ∀ uPos, ch '\n' ∉ rest sLine uPos := fun uPos hm => h (Config.token_subset _ uPos true (ch ' ') hm)
  have htarget : ∀ c : UInt8, c ≠ ch '!' → c ≠ ch '@' → c ≠ ch ':' → c ≠ ch '$' → c ∉ tok sLine 1 → c ∉ tok sLine 2 →
      c ∉ (added sLine).m_sTarget := fun c h1 h2 h3 h4 hmask htok hm =>
    (mem_added_target h1 h2 h3 h4 hm).elim hmask htok
  have hspace := space_not_mem_tok sLine
  refine ⟨⟨_, parse_parted (tok sLine 1), rfl⟩, ?_, ⟨orStar_ne _, ?_⟩, ⟨?_, ?_⟩, ⟨?_, ?_⟩, ?_⟩
  · change (if tok sLine 2 ≠ [] then tok sLine 2 else lit "$" ++ _) ≠ []
    split
    · assumption
    · exact cons_ne_nil _ _
  · change (orStar (rest sLine 3)).head? ≠ some (ch ' ')
    unfold orStar
    split
    · exact head_rest sLine 2
    · decide
  · exact fun hm => hspace 1 ((mem_mask (by decide) (by decide) (by decide) (by decide) _).1 hm)
  · exact htarget _ (by decide) (by decide) (by decide) (by decide) (hspace 1) (hspace 2)
  · exact fun hm => htok 1 ((mem_mask (by decide) (by decide) (by decide) (by decide) _).1 hm)
  · refine ⟨htarget _ (by decide) (by decide) (by decide) (by decide) (htok 1) (htok 2), ?_⟩
    exact fun hm => hrest 3 ((mem_orStar (by decide) _).1 hm)
  · exact fun c hc => nomatch hc

/-- **The new entries that are loaded as they are saved.** -/
theorem added_keeps_iff (sLine : CString) :
    Keeps (added sLine) ↔ (0 : UInt8) ∉ rest sLine 1 ∧ ¬lit "::" <+: tok sLine 1 := by
  have hplain : Plain (added sLine) ↔ (0 : UInt8) ∉ rest sLine 1 := by
    have hmask : (0 : UInt8) ∈ (added sLine).m_sHostMask ↔ (0 : UInt8) ∈ tok sLine 1 :=
      mem_mask (by decide) (by decide) (by decide) (by decide) _
    have hpattern : (0 : UInt8) ∈ (added sLine).m_sPattern ↔ (0 : UInt8) ∈ rest sLine 3 := mem_orStar (by decide) _
    have htarget : (0 : UInt8) ∈ tok sLine 2 → (0 : UInt8) ∈ (added sLine).m_sTarget := fun hm => by
      have hne : tok sLine 2 ≠ [] := ne_nil_of_mem hm
      change (0 : UInt8) ∈ if tok sLine 2 ≠ [] then tok sLine 2 else _
      rwa [if_pos hne]
    have hback : (0 : UInt8) ∈ (added sLine).m_sTarget → (0 : UInt8) ∈ tok sLine 1 ∨ (0 : UInt8) ∈ tok sLine 2 :=
      mem_added_target (by decide) (by decide) (by decide) (by decide)
    rw [Plain, hmask, hpattern, mem_rest (by decide) 1, mem_rest (by decide) 2]
    tauto
  rw [Keeps, hplain, ← head_mask_iff]
  rfl

/-! ## Steps -/

theorem exec_inv (h : Inv s) (sLine : OneLine) : Inv (exec s sLine) := by
  rcases exec_cases s sLine with ⟨-, hdoes⟩ | ⟨hbrings, hlist, hsaved⟩
  · exact ⟨hdoes.edit.forall_mem (fun _ _ => Alike.sound) h.sound, hdoes.edit.differ h.differ, hdoes.saved h.saved⟩
  · refine ⟨?_, ?_, hsaved⟩
    · rw [hlist, forall_mem_append, forall_mem_singleton]
      exact ⟨h.sound, added_sound sLine.2⟩
    · rw [hlist, pairwise_append]
      refine ⟨h.differ, pairwise_singleton _ _, fun e he e' he' => ?_⟩
      rw [mem_singleton.1 he']
      exact hbrings.new e he

/-- **One command** leaves entries that are loaded as they are saved exactly if it meets the condition. -/
theorem exec_keeps_iff (h : ∀ e ∈ s.m_lsWatchers, Keeps e) (sLine : OneLine) :
    (∀ e ∈ (exec s sLine).m_lsWatchers, Keeps e) ↔ Meets s sLine := by
  rcases exec_cases s sLine with ⟨hno, hdoes⟩ | ⟨hbrings, hlist, -⟩
  · exact iff_of_true (hdoes.edit.forall_mem (fun _ _ => Alike.keeps) h) fun hbrings => absurd hbrings hno
  · rw [hlist, forall_mem_append, forall_mem_singleton, added_keeps_iff]
    exact ⟨fun hall _ => hall.2, fun hmeets => ⟨h, hmeets hbrings⟩⟩

/-! ## Dump -/

theorem typed_append (x : CString) : typed sModNick (lit "/msg " ++ sModNick ++ lit " " ++ x) = some x := by
  rw [typed, if_pos (prefix_append _ _), drop_left]

theorem typed_none {sModNick x : CString} (h : ¬lit "/msg " <+: x) : typed sModNick x = none := by
  rw [typed, if_neg fun hp => h (List.IsPrefix.trans ?_ hp)]
  rw [append_assoc]
  exact prefix_append _ _

theorem modify_last {α : Type} (l : List α) (a : α) (f : α → α) : (l ++ [a]).modify l.length f = l ++ [f a] := by
  induction l with
  | nil => rfl
  | cons b l ih => exact congrArg (b :: ·) ih

section Last

variable {es : List CWatchEntry} {uIdx : UInt32}

theorem withEntry_last (hl : s.m_lsWatchers = es ++ [e]) (hidx : uIdx.toNat = es.length + 1) (f : ℕ → CWatcherMod) :
    s.withEntry uIdx f = f es.length := by
  have hone : (uIdx - 1).toNat = es.length := by
    rw [UInt32.toNat_sub_of_le _ _ (UInt32.le_iff_toNat_le.2 (by rw [hidx]; exact Nat.le_add_left 1 _)), hidx]
    rfl
  rw [withEntry, hone, hl, length_append, length_singleton, if_neg (by omega)]

theorem setFlag_last (hl : s.m_lsWatchers = es ++ [e]) (hidx : uIdx.toNat = es.length + 1) (hall : uIdx ≠ 0xFFFFFFFF)
    (set : CWatchEntry → CWatchEntry) (sAll sOne : CString) :
    (s.setFlag uIdx set sAll sOne).m_lsWatchers = es ++ [set e] := by
  rw [setFlag, if_neg hall, withEntry_last hl hidx]
  change s.m_lsWatchers.modify es.length set = _
  rw [hl, modify_last]

end Last

theorem index_uintText (uIdx : UInt32) : index (uintText uIdx.toNat) = uIdx := by
  have hstar : uintText uIdx.toNat ≠ lit "*" := fun h => by
    have hmem : ch '*' ∈ uintText uIdx.toNat := by
      rw [h]
      decide
    exact not_mem_uintText (by decide) _ hmem
  rw [index, if_neg hstar, UserConfig.toUInt_uintText]

theorem numbered_words {w : CString} (hne : w ≠ []) (hw : ch ' ' ∉ w) (uIdx : UInt32) {x : CString}
    (hx : x.head? ≠ some (ch ' ')) :
    tok (w ++ ch ' ' :: (uintText uIdx.toNat ++ ch ' ' :: x)) 0 = w ∧
      tok (w ++ ch ' ' :: (uintText uIdx.toNat ++ ch ' ' :: x)) 1 = uintText uIdx.toNat ∧
      rest (w ++ ch ' ' :: (uintText uIdx.toNat ++ ch ' ' :: x)) 2 = x := by
  have hspace : ch ' ' ∉ uintText uIdx.toNat := not_mem_uintText (by decide) _
  have hhead : (uintText uIdx.toNat ++ ch ' ' :: x).head? ≠ some (ch ' ') := by
    rw [head?_append_of_ne_nil _ (uintText_ne _)]
    exact fun h => hspace (mem_of_mem_head? h)
  obtain ⟨hzero, hrest⟩ := words_append hne hw hhead
  exact ⟨hzero, tok_rest_append hrest hspace hx⟩

section Commands

variable {es : List CWatchEntry} {uIdx : UInt32}

theorem onModCommand_add {x : CWatchEntry} (hx : Sound x) (hl : s.m_lsWatchers = es)
    (hnew : ∀ e ∈ es, e.same (.new x.m_sHostMask x.m_sTarget x.m_sPattern) = false) :
    (s.onModCommand
      (lit "ADD" ++ ch ' ' :: (x.m_sHostMask ++ ch ' ' :: (x.m_sTarget ++ ch ' ' :: x.m_sPattern)))).m_lsWatchers =
        es ++ [.new x.m_sHostMask x.m_sTarget x.m_sPattern] := by
  have hmask : x.m_sHostMask ≠ [] := by
    obtain ⟨Nick, -, heq⟩ := hx.mask
    rw [heq, maskOf]
    simp [orStar_ne]
  have hhead : ∀ {w y : CString}, w ≠ [] → ch ' ' ∉ w → (w ++ y).head? ≠ some (ch ' ') := fun hne hw => by
    rw [head?_append_of_ne_nil _ hne]
    exact fun h => hw (mem_of_mem_head? h)
  obtain ⟨hzero, hrest⟩ := words_append (w := lit "ADD") (by decide) (by decide)
    (hhead (y := ch ' ' :: (x.m_sTarget ++ ch ' ' :: x.m_sPattern)) hmask hx.spaces.1)
  obtain ⟨hone, hrest2⟩ := tok_rest_append hrest hx.spaces.1 (hhead hx.target hx.spaces.2)
  obtain ⟨htwo, hrest3⟩ := tok_rest_append hrest2 hx.spaces.2 hx.pattern.2
  have hname : (lit "Add").equals (lit "ADD") = true := by decide
  rw [onModCommand, hzero, if_pos hname]
  rcases watch_cases s (lit "ADD" ++ ch ' ' :: (x.m_sHostMask ++ ch ' ' :: (x.m_sTarget ++ ch ' ' :: x.m_sPattern)))
    with ⟨hno, -⟩ | ⟨-, hlist, -⟩
  · refine absurd ⟨by rwa [hone], ?_⟩ hno
    rw [added, hone, htwo, hrest3, hl]
    exact hnew
  · rw [hlist, added, hone, htwo, hrest3, hl]

theorem dispatch (s : CWatcherMod) (sLine : CString) :
    (tok sLine 0 = lit "CLEAR" → s.onModCommand sLine = s.clear) ∧
      (tok sLine 0 = lit "SETSOURCES" → s.onModCommand sLine = s.setSources sLine) ∧
      (tok sLine 0 = lit "DISABLE" → s.onModCommand sLine = s.disable sLine) ∧
      (tok sLine 0 = lit "SETDETACHEDCLIENTONLY" → s.onModCommand sLine = s.setDetachedClientOnly sLine) ∧
      (tok sLine 0 = lit "SETDETACHEDCHANNELONLY" → s.onModCommand sLine = s.setDetachedChannelOnly sLine) := by
  unfold onModCommand
  dsimp only
  refine ⟨?_, ?_, ?_, ?_, ?_⟩ <;> intro h <;> rw [h] <;> rfl

theorem onModCommand_last (hl : s.m_lsWatchers = es ++ [e]) (hidx : uIdx.toNat = es.length + 1)
    (hall : uIdx ≠ 0xFFFFFFFF) :
    (∀ x : CString, x.head? ≠ some (ch ' ') →
      (s.onModCommand (lit "SETSOURCES" ++ ch ' ' :: (uintText uIdx.toNat ++ ch ' ' :: x))).m_lsWatchers =
        es ++ [e.setSources x]) ∧
    (s.onModCommand (lit "DISABLE" ++ ch ' ' :: uintText uIdx.toNat)).m_lsWatchers =
      es ++ [{ e with m_bDisabled := true }] ∧
    (s.onModCommand
      (lit "SETDETACHEDCLIENTONLY" ++ ch ' ' :: (uintText uIdx.toNat ++ ch ' ' :: lit "TRUE"))).m_lsWatchers =
      es ++ [{ e with m_bDetachedClientOnly := true }] ∧
    (s.onModCommand
      (lit "SETDETACHEDCHANNELONLY" ++ ch ' ' :: (uintText uIdx.toNat ++ ch ' ' :: lit "TRUE"))).m_lsWatchers =
      es ++ [{ e with m_bDetachedChannelOnly := true }] := by
  have htrue : ∀ {line : CString}, rest line 2 = lit "TRUE" → (tok line 2).toBool = true := fun h => by
    rw [tok_last h (by decide)]
    decide
  have hnumber := index_uintText uIdx
  refine ⟨fun x hx => ?_, ?_, ?_, ?_⟩
  · obtain ⟨hzero, hone, htwo⟩ := numbered_words (w := lit "SETSOURCES") (by decide) (by decide) uIdx hx
    rw [(dispatch s _).2.1 hzero, setSources]
    rw [hone, htwo, UserConfig.toUInt_uintText, withEntry_last hl hidx]
    change s.m_lsWatchers.modify es.length _ = _
    rw [hl, modify_last]
  · have hhead : (uintText uIdx.toNat).head? ≠ some (ch ' ') := fun h =>
      not_mem_uintText (by decide) uIdx.toNat (mem_of_mem_head? h)
    obtain ⟨hzero, hrest⟩ := words_append (w := lit "DISABLE") (by decide) (by decide) hhead
    rw [(dispatch s _).2.2.1 hzero, disable, tok_last hrest (not_mem_uintText (by decide) _), hnumber]
    exact setFlag_last hl hidx hall _ _ _
  · obtain ⟨hzero, hone, htwo⟩ := numbered_words (w := lit "SETDETACHEDCLIENTONLY") (by decide) (by decide) uIdx
      (x := lit "TRUE") (by decide)
    rw [(dispatch s _).2.2.2.1 hzero, setDetachedClientOnly]
    rw [htrue htwo, hone, hnumber]
    exact setFlag_last hl hidx hall _ _ _
  · obtain ⟨hzero, hone, htwo⟩ := numbered_words (w := lit "SETDETACHEDCHANNELONLY") (by decide) (by decide) uIdx
      (x := lit "TRUE") (by decide)
    rw [(dispatch s _).2.2.2.2 hzero, setDetachedChannelOnly]
    rw [htrue htwo, hone, hnumber]
    exact setFlag_last hl hidx hall _ _ _

end Commands

/-- the commands that Dump prints for an entry -/
def commands (uIdx : UInt32) (e : CWatchEntry) : VCString :=
  [lit "ADD" ++ ch ' ' :: (e.m_sHostMask ++ ch ' ' :: (e.m_sTarget ++ ch ' ' :: e.m_sPattern))] ++
    (if e.getSourcesStr ≠ [] then [lit "SETSOURCES" ++ ch ' ' :: (uintText uIdx.toNat ++ ch ' ' :: e.getSourcesStr)]
      else []) ++
    (if e.m_bDisabled then [lit "DISABLE" ++ ch ' ' :: uintText uIdx.toNat] else []) ++
    (if e.m_bDetachedClientOnly then
      [lit "SETDETACHEDCLIENTONLY" ++ ch ' ' :: (uintText uIdx.toNat ++ ch ' ' :: lit "TRUE")] else []) ++
    if e.m_bDetachedChannelOnly then
      [lit "SETDETACHEDCHANNELONLY" ++ ch ' ' :: (uintText uIdx.toNat ++ ch ' ' :: lit "TRUE")] else []

theorem typed_dumpEntry (uIdx : UInt32) (e : CWatchEntry) :
    (dumpEntry sModNick uIdx e).filterMap (typed sModNick) = commands uIdx e := by
  have htyped : ∀ {x y : CString}, x = lit "/msg " ++ sModNick ++ lit " " ++ y → typed sModNick x = some y := fun h => by
    rw [h, typed_append]
  have hadd : typed sModNick (lit "/msg " ++ sModNick ++ lit " ADD " ++ e.m_sHostMask ++ lit " " ++ e.m_sTarget ++
      lit " " ++ e.m_sPattern) =
      some (lit "ADD" ++ ch ' ' :: (e.m_sHostMask ++ ch ' ' :: (e.m_sTarget ++ ch ' ' :: e.m_sPattern))) :=
    htyped (by simp only [append_assoc]; rfl)
  have hsources : typed sModNick (lit "/msg " ++ sModNick ++ lit " SETSOURCES " ++ uintText uIdx.toNat ++ lit " " ++
      e.getSourcesStr) = some (lit "SETSOURCES" ++ ch ' ' :: (uintText uIdx.toNat ++ ch ' ' :: e.getSourcesStr)) :=
    htyped (by simp only [append_assoc]; rfl)
  have hdisable : typed sModNick (lit "/msg " ++ sModNick ++ lit " DISABLE " ++ uintText uIdx.toNat) =
      some (lit "DISABLE" ++ ch ' ' :: uintText uIdx.toNat) :=
    htyped (by simp only [append_assoc]; rfl)
  have hclient : typed sModNick (lit "/msg " ++ sModNick ++ lit " SETDETACHEDCLIENTONLY " ++ uintText uIdx.toNat ++
      lit " TRUE") = some (lit "SETDETACHEDCLIENTONLY" ++ ch ' ' :: (uintText uIdx.toNat ++ ch ' ' :: lit "TRUE")) :=
    htyped (by simp only [append_assoc]; rfl)
  have hchannel : typed sModNick (lit "/msg " ++ sModNick ++ lit " SETDETACHEDCHANNELONLY " ++ uintText uIdx.toNat ++
      lit " TRUE") = some (lit "SETDETACHEDCHANNELONLY" ++ ch ' ' :: (uintText uIdx.toNat ++ ch ' ' :: lit "TRUE")) :=
    htyped (by simp only [append_assoc]; rfl)
  simp only [dumpEntry, commands, filterMap_append, apply_ite (List.filterMap (typed sModNick)),
    filterMap_cons, filterMap_nil, hadd, hsources, hdisable, hclient, hchannel]

theorem getSourcesStr_nil (h : Sound e) (hnil : e.getSourcesStr = []) : e.m_vsSources = [] := by
  have hread := sources_getSourcesStr h e false
  rw [if_neg Bool.false_ne_true, hnil] at hread
  have hnone := congrArg CWatchEntry.m_vsSources hread
  exact hnone.symm

theorem head_getSourcesStr (h : Sound e) : e.getSourcesStr.head? ≠ some (ch ' ') := by
  unfold CWatchEntry.getSourcesStr
  cases hvs : e.m_vsSources with
  | nil => decide
  | cons c cs =>
    obtain ⟨w, hw, hc⟩ := h.sources c (by rw [hvs]; exact mem_cons_self)
    rw [map_cons, hc, toWord_ofWord, join_cons, head?_append_of_ne_nil _ hw.1]
    exact fun hh => hw.2.1 (mem_of_mem_head? hh)

/-- **The commands of an entry** bring it. -/
theorem run_commands {es : List CWatchEntry} {e : CWatchEntry} {uIdx : UInt32} (he : Sound e)
    (hhead : e.m_sHostMask.head? ≠ some (ch ':')) (hl : s.m_lsWatchers = es) (hidx : uIdx.toNat = es.length + 1)
    (hall : uIdx ≠ 0xFFFFFFFF) (hnew : ∀ x ∈ es, x.same e = false) :
    ((commands uIdx e).foldl onModCommand s).m_lsWatchers = es ++ [e] := by
  have hfold : ∀ (b : Prop) [Decidable b] (c : CString) (s : CWatcherMod),
      (if b then [c] else []).foldl onModCommand s = if b then s.onModCommand c else s := fun b _ c s => by
    split <;> rfl
  have hself : CWatchEntry.new e.m_sHostMask e.m_sTarget e.m_sPattern =
      ⟨e.m_sHostMask, e.m_sTarget, e.m_sPattern, false, false, false, []⟩ := by
    rw [new_parts he, again_eq_self he hhead]
  have h1 := onModCommand_add he hl fun x hx => by
    rw [hself]
    exact hnew x hx
  rw [hself] at h1
  rw [commands, foldl_append, foldl_append, foldl_append, foldl_append, foldl_cons,
    foldl_nil, hfold, hfold, hfold, hfold]
  set s1 := s.onModCommand (lit "ADD" ++ ch ' ' :: (e.m_sHostMask ++ ch ' ' :: (e.m_sTarget ++ ch ' ' :: e.m_sPattern)))
  set s2 := if e.getSourcesStr ≠ [] then
    s1.onModCommand (lit "SETSOURCES" ++ ch ' ' :: (uintText uIdx.toNat ++ ch ' ' :: e.getSourcesStr)) else s1 with hs2
  have h2 : s2.m_lsWatchers =
      es ++ [⟨e.m_sHostMask, e.m_sTarget, e.m_sPattern, false, false, false, e.m_vsSources⟩] := by
    by_cases hsrc : e.getSourcesStr = []
    · rw [hs2, if_neg (not_not.2 hsrc), h1, getSourcesStr_nil he hsrc]
    · have hread := sources_getSourcesStr he ⟨e.m_sHostMask, e.m_sTarget, e.m_sPattern, false, false, false, []⟩ false
      rw [if_neg Bool.false_ne_true, append_nil] at hread
      rw [hs2, if_pos hsrc, (onModCommand_last h1 hidx hall).1 _ (head_getSourcesStr he), hread]
  set s3 := if e.m_bDisabled = true then
    s2.onModCommand (lit "DISABLE" ++ ch ' ' :: uintText uIdx.toNat) else s2 with hs3
  have h3 : s3.m_lsWatchers =
      es ++ [⟨e.m_sHostMask, e.m_sTarget, e.m_sPattern, e.m_bDisabled, false, false, e.m_vsSources⟩] := by
    cases hflag : e.m_bDisabled with
    | true => rw [hs3, if_pos hflag, (onModCommand_last h2 hidx hall).2.1]
    | false => rw [hs3, if_neg (by rw [hflag]; exact Bool.false_ne_true), h2]
  set s4 := if e.m_bDetachedClientOnly = true then
    s3.onModCommand (lit "SETDETACHEDCLIENTONLY" ++ ch ' ' :: (uintText uIdx.toNat ++ ch ' ' :: lit "TRUE"))
    else s3 with hs4
  have h4 : s4.m_lsWatchers = es ++ [⟨e.m_sHostMask, e.m_sTarget, e.m_sPattern, e.m_bDisabled, e.m_bDetachedClientOnly,
      false, e.m_vsSources⟩] := by
    cases hflag : e.m_bDetachedClientOnly with
    | true => rw [hs4, if_pos hflag, (onModCommand_last h3 hidx hall).2.2.1]
    | false => rw [hs4, if_neg (by rw [hflag]; exact Bool.false_ne_true), h3]
  have hentry : e = ⟨e.m_sHostMask, e.m_sTarget, e.m_sPattern, e.m_bDisabled, e.m_bDetachedClientOnly,
      e.m_bDetachedChannelOnly, e.m_vsSources⟩ := rfl
  cases hflag : e.m_bDetachedChannelOnly with
  | true =>
    rw [if_pos rfl, (onModCommand_last h4 hidx hall).2.2.2, hentry, hflag]
  | false =>
    rw [if_neg Bool.false_ne_true, h4, hentry, hflag]

theorem run_dumpLoop {es : List CWatchEntry} (hsound : ∀ e ∈ es, Sound e)
    (hhead : ∀ e ∈ es, e.m_sHostMask.head? ≠ some (ch ':')) {old : List CWatchEntry} {s : CWatcherMod} {uIdx : UInt32}
    (hl : s.m_lsWatchers = old) (hdiffer : (old ++ es).Pairwise fun e e' => e.same e' = false)
    (hidx : uIdx.toNat = old.length + 1) (hfit : (old ++ es).length + 1 < 2 ^ 32) :
    (((dumpLoop sModNick uIdx es).filterMap (typed sModNick)).foldl
      onModCommand s).m_lsWatchers = old ++ es := by
  induction es generalizing old s uIdx with
  | nil => rw [dumpLoop, append_nil]; exact hl
  | cons e es ih =>
    rw [forall_mem_cons] at hsound hhead
    rw [length_append, length_cons] at hfit
    have hall : uIdx ≠ 0xFFFFFFFF := fun h => by
      rw [h] at hidx
      have hmax : (0xFFFFFFFF : UInt32).toNat = 2 ^ 32 - 1 := rfl
      omega
    have hone := run_commands hsound.1 hhead.1 hl hidx hall fun x hx =>
      (pairwise_append.1 hdiffer).2.2 x hx e mem_cons_self
    have hnext : (uIdx + 1).toNat = (old ++ [e]).length + 1 := by
      rw [UInt32.toNat_add, hidx, length_append, length_singleton, UInt32.toNat_one]
      omega
    have hsplit : old ++ e :: es = old ++ [e] ++ es := by rw [append_assoc, singleton_append]
    rw [dumpLoop, filterMap_append, foldl_append, typed_dumpEntry, hsplit]
    refine ih hsound.2 hhead.2 hone (by rwa [← hsplit]) hnext ?_
    rw [← hsplit, length_append, length_cons]
    exact hfit

/-- **The commands of Dump** bring the list again. -/
theorem dumps_of_keeps (sModNick : CString) {s : CWatcherMod} (h : Inv s) (hkeeps : ∀ e ∈ s.m_lsWatchers, Keeps e)
    (hfit : Numbered s) : Dumps sModNick s := by
  have hrule : typed sModNick (lit "---------------") = none := typed_none (by decide)
  have hnone : typed sModNick (lit "You have no entries.") = none := typed_none (by decide)
  have hclear : typed sModNick (lit "/msg " ++ sModNick ++ lit " CLEAR") = some (lit "CLEAR") := by
    refine Eq.trans (congrArg _ ?_) (typed_append sModNick (lit "CLEAR"))
    simp only [append_assoc]
    rfl
  have hempty : (onModCommand .init (lit "CLEAR")).m_lsWatchers = [] := by decide
  unfold Dumps dump
  split
  · rename_i hnil
    rw [hnil, filterMap_cons_none hnone]
    rfl
  · simp only [filterMap_append, filterMap_cons, filterMap_nil, hrule, hclear, append_nil,
      foldl_append, foldl_cons, foldl_nil]
    exact run_dumpLoop sModNick h.sound (fun e he => (hkeeps e he).2) hempty h.differ rfl hfit

/-! ## Runs -/

/-- **The runs in which every list is loaded as it was saved**, and in which what Dump prints brings it again: no Add
brings an entry that has a NUL, or two colons in front. -/
theorem watch_iff (sModNick : CString) (lines : List OneLine) :
    Runs.States exec (fun s => Reloads s ∧ (Numbered s → Dumps sModNick s)) lines .init ↔
      Runs.Steps exec Meets lines .init := by
  have htrue : Runs.Steps exec (fun _ _ => True) lines .init := Runs.steps_iff.2 fun _ _ _ _ => trivial
  have hstart : Inv .init ∧ ∀ e ∈ init.m_lsWatchers, Keeps e :=
    ⟨⟨fun e he => absurd he List.not_mem_nil, List.Pairwise.nil, rfl⟩, fun e he => absurd he List.not_mem_nil⟩
  have hgood : ∀ s, (Inv s ∧ ∀ e ∈ s.m_lsWatchers, Keeps e) → Reloads s ∧ (Numbered s → Dumps sModNick s) :=
    fun s h => ⟨(reloads_iff h.1).2 h.2, dumps_of_keeps sModNick h.1 h.2⟩
  refine (and_iff_left htrue).symm.trans (Runs.keeps_iff hgood ?_ ?_ lines hstart htrue)
  · exact fun s sLine h _ hmeets => ⟨⟨exec_inv h.1 sLine, (exec_keeps_iff h.2 sLine).2 hmeets⟩, trivial⟩
  · exact fun s sLine h _ hholds _ => (exec_keeps_iff h.2 sLine).1 ((reloads_iff (exec_inv h.1 sLine)).1 hholds.1)

/-- **A mask with two colons in front** is loaded without the second one, and dumped so that it loses it. -/
theorem watch_two_colons :
    ¬Reloads (exec .init ⟨lit "Add ::a", by decide⟩) ∧
      ¬Dumps (lit "*watch") (exec .init ⟨lit "Add ::a", by decide⟩) := by
  refine ⟨fun h => ?_, by unfold Dumps; decide +kernel⟩
  have hlost : added (lit "Add ::a") ∉
        (onLoad (exec .init ⟨lit "Add ::a", by decide⟩).m_mssRegistry).1.m_lsWatchers ∧
      added (lit "Add ::a") ∈ (exec .init ⟨lit "Add ::a", by decide⟩).m_lsWatchers := by decide +kernel
  exact hlost.1 ((h _).2 hlost.2)

end ZNC.Watch
