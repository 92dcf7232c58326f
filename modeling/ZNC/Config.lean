/-
Configuration files: `CConfig` of `src/Config.cpp`, written block by block and parsed line by line.

A config has entries, a list of values for each key, and blocks, each a config of its own with a tag and a name. `Write`
puts each entry and each tag on a line of its own, so it takes line breaks out of what it writes; `Replace_n` stops at a NUL.
`Parse` keeps the blocks that are open on a stack.

Model: the blocks of a config are one list, in the order of `m_SubConfigs` and its vectors. The names of
`m_SubConfigNameSets` are those of the blocks.

Results:
- `trimmedLine_entry`, `trimmedLine_open`, `trimmedLine_close`: what `Parse` does with the lines that `Write` puts out.
-/
import ZNC.Lib.Lines
import ZNC.Token

namespace ZNC.Config

open CString List

/-! ## Model -/

abbrev EntryMap : Type := OrdMap CString VCString

/-- `SubConfigMap`: the blocks in order, each with its tag, its name, its entries and its blocks -/
inductive SubConfigs where
  | nil
  | block (sTag sName : CString) (configEntries : EntryMap) (subConfigs : SubConfigs) (rest : SubConfigs)
deriving DecidableEq

structure CConfig where
  configEntries : EntryMap
  subConfigs : SubConfigs
deriving DecidableEq

def CConfig.empty : CConfig := ⟨.empty, .nil⟩

/-- `m_ConfigEntries[sName].push_back(sValue)` -/
def EntryMap.pushBack (m : EntryMap) (sName sValue : CString) : EntryMap :=
  m.insert sName ((m.find sName).getD [] ++ [sValue])

/-- `m_SubConfigNameSets[sTag].find(sName)` -/
def SubConfigs.has (sTag sName : CString) : SubConfigs → Bool
  | .nil => false
  | .block sTag' sName' _ _ rest => (sTag' = sTag && sName' = sName) || rest.has sTag sName

/-- `m_SubConfigs[sTag].emplace_back(sName, config)` -/
def SubConfigs.emplaceBack (sTag sName : CString) (config : CConfig) : SubConfigs → SubConfigs
  | .nil => .block sTag sName config.configEntries config.subConfigs .nil
  | .block sTag' sName' entries subs rest =>
    if sTag < sTag' then
      .block sTag sName config.configEntries config.subConfigs (.block sTag' sName' entries subs rest)
    else .block sTag' sName' entries subs (rest.emplaceBack sTag sName config)

namespace CConfig

def addKeyValuePair (c : CConfig) (sName sValue : CString) : CConfig :=
  if sName = [] ∨ sValue = [] then c else { c with configEntries := EntryMap.pushBack c.configEntries sName sValue }

/-- the block that both `AddSubConfig` and `Parse` add -/
def emplaceBack (c : CConfig) (sTag sName : CString) (config : CConfig) : CConfig :=
  { c with subConfigs := c.subConfigs.emplaceBack sTag sName config }

/-- `AddSubConfig(sTag, sName, config)`: whether it is added, and the config afterwards -/
def addSubConfig (c : CConfig) (sTag sName : CString) (config : CConfig) : Bool × CConfig :=
  if c.subConfigs.has sTag sName then (false, c) else (true, c.emplaceBack sTag sName config)

end CConfig

/-! ### Writing -/

/-- the lambda of `Write` -/
def singleLine (s : CString) : CString := (s.remove_n (ch '\r')).remove_n (ch '\n')

/-- `CString(iIndentation, '\t')` -/
def indentation (iIndentation : ℕ) : CString := List.replicate iIndentation (ch '\t')

def entryLine (iIndentation : ℕ) (sName sValue : CString) : CString :=
  singleLine (indentation iIndentation ++ sName ++ lit " = " ++ sValue)

/-- the line at the start of a block -/
def openLine (iIndentation : ℕ) (sTag sName : CString) : CString :=
  singleLine (indentation iIndentation ++ lit "<" ++ sTag ++ lit " " ++ sName ++ lit ">")

/-- the line at the end of a block -/
def closeLine (iIndentation : ℕ) (sTag : CString) : CString :=
  singleLine (indentation iIndentation ++ lit "</" ++ sTag ++ lit ">")

def writeEntries (iIndentation : ℕ) (entries : List (CString × VCString)) : CString :=
  entries.flatMap fun it => it.2.flatMap fun sValue => entryLine iIndentation it.1 sValue ++ lit "\n"

def SubConfigs.write (iIndentation : ℕ) : SubConfigs → CString
  | .nil => []
  | .block sTag sName entries subs rest =>
    lit "\n" ++ openLine iIndentation sTag sName ++ lit "\n" ++ writeEntries (iIndentation + 1) entries.entries ++
      subs.write (iIndentation + 1) ++ closeLine iIndentation sTag ++ lit "\n" ++ rest.write iIndentation

/-- `Write(File, iIndentation)`: the text in the file -/
def CConfig.write (c : CConfig) (iIndentation : ℕ) : CString :=
  writeEntries iIndentation c.configEntries.entries ++ c.subConfigs.write iIndentation

/-! ### Parsing -/

def blanks : CString := lit " \t\r\n"

def trim (s : CString) : CString := (s.trimLeft blanks).trimRight_n blanks

structure ConfigStackEntry where
  sTag : CString
  sName : CString
  config : CConfig

/-- the variables of `Parse`: `*this`, and the open blocks, the innermost first -/
structure ParseState where
  uLineNum : ℕ
  this : CConfig
  configStack : List ConfigStackEntry
  bCommented : Bool

namespace ParseState

/-- `*pActiveConfig` -/
def activeConfig (st : ParseState) : CConfig :=
  match st.configStack with
  | [] => st.this
  | entry :: _ => entry.config

/-- `*pActiveConfig = c` -/
def setActiveConfig (st : ParseState) (c : CConfig) : ParseState :=
  match st.configStack with
  | [] => { st with this := c }
  | entry :: configStack => { st with configStack := { entry with config := c } :: configStack }

/-- `ERROR(arg)`: the config is cleared -/
def error {α : Type} (st : ParseState) (arg : CString) : Except CString α :=
  .error (lit "Error on line " ++ lit (toString st.uLineNum) ++ lit ": " ++ arg)

def closeTag (st : ParseState) (sTag sValue : CString) : Except CString ParseState :=
  if sValue ≠ [] then st.error (lit "Malformated closing tag. Expected \"</" ++ sTag ++ lit ">\".")
  else match st.configStack with
    | [] => st.error (lit "Closing tag \"" ++ sTag ++ lit "\" which is not open.")
    | entry :: configStack =>
      if !sTag.equals entry.sTag then st.error (lit "Closing tag \"" ++ sTag ++ lit "\" which is not open.")
      else
        let st' := { st with configStack }
        if st'.activeConfig.subConfigs.has sTag.asLower entry.sName then
          st.error (lit "Duplicate entry for tag \"" ++ sTag ++ lit "\" name \"" ++ entry.sName ++ lit "\".")
        else .ok (st'.setActiveConfig (st'.activeConfig.emplaceBack sTag.asLower entry.sName entry.config))

def openTag (st : ParseState) (sTag sValue : CString) : Except CString ParseState :=
  if sValue = [] then st.error (lit "Empty block name at begin of block.")
  else .ok { st with configStack := ⟨sTag.asLower, sValue, .empty⟩ :: st.configStack }

/-- a line between angle brackets -/
def tagLine (st : ParseState) (sLine : CString) : Except CString ParseState :=
  let sLine := trim (sLine.drop 1).dropLast
  let sTag := trim (sLine.token 0 false 0x20 false)
  let sValue := trim (sLine.token 1 true 0x20 false)
  if sTag.startsWith (lit "/") then st.closeTag (sTag.trimPrefix_n (lit "/")) sValue else st.openTag sTag sValue

def regularLine (st : ParseState) (sLine : CString) : Except CString ParseState :=
  let sName := trim (sLine.token 0 false (ch '=') false)
  -- only the first space goes: values may begin with one
  let sValue := (sLine.token 1 true (ch '=') false).trimPrefix_n (lit " ")
  if sName = [] ∨ sValue = [] then st.error (lit "Malformed line")
  else
    let c := st.activeConfig
    .ok (st.setActiveConfig { c with configEntries := EntryMap.pushBack c.configEntries sName.asLower sValue })

/-- a line without leading blanks and without line end -/
def trimmedLine (st : ParseState) (sLine : CString) : Except CString ParseState :=
  if st.bCommented || sLine.startsWith (lit "/*") then .ok { st with bCommented := !sLine.endsWith (lit "*/") }
  else if sLine = [] || sLine.startsWith (lit "#") || sLine.startsWith (lit "//") then .ok st
  else if sLine.startsWith (lit "<") && sLine.endsWith (lit ">") then st.tagLine sLine
  else st.regularLine sLine

/-- one round of the loop of `Parse` -/
def parseLine (st : ParseState) (sLine : CString) : Except CString ParseState :=
  { st with uLineNum := st.uLineNum + 1 }.trimmedLine ((sLine.trimLeft blanks).trimRight_n (lit "\r\n"))

def parseLines (st : ParseState) (sText : CString) : Except CString ParseState :=
  (Lines.lines (ch '\n') sText).foldlM parseLine st

/-- the end of `Parse` -/
def finish (st : ParseState) : Except CString CConfig :=
  if st.bCommented then st.error (lit "Comment not closed at end of file.")
  else match st.configStack with
    | [] => .ok st.this
    | entry :: _ =>
      st.error (lit "Not all tags are closed at the end of the file. Inner-most open tag is \"" ++
        entry.sTag ++ lit "\".")

end ParseState

/-- `Parse(file, sErrorMsg)` of an empty config: the error, or the config -/
def parse (sText : CString) : Except CString CConfig :=
  match (⟨0, .empty, [], false⟩ : ParseState).parseLines sText with
  | .error sErrorMsg => .error sErrorMsg
  | .ok st => st.finish

example : parse (lit "<foo a>\n</bar>\n") = .error (lit "Error on line 2: Closing tag \"bar\" which is not open.") := by
  decide

/-! ## Strings -/

/-- a byte that stays on a line as it is -/
def Single (c : UInt8) : Prop := c ≠ 0 ∧ c ≠ ch '\r' ∧ c ≠ ch '\n'

instance Single.decidable (c : UInt8) : Decidable (Single c) :=
  inferInstanceAs (Decidable (c ≠ 0 ∧ c ≠ ch '\r' ∧ c ≠ ch '\n'))

variable {s : CString}

theorem single_singleLine {c : UInt8} (hc : c ∈ singleLine s) : Single c := by
  have hmem (s : CString) (d : UInt8) (h : c ∈ s.remove_n d) : c ∈ s ∧ c ≠ 0 ∧ c ≠ d := by
    rw [remove_n, mem_filter] at h
    refine ⟨(takeWhile_sublist _).subset h.1, ?_, by simpa using h.2⟩
    simpa using mem_takeWhile_imp h.1
  obtain ⟨h, h0, hlf⟩ := hmem _ _ hc
  exact ⟨h0, (hmem _ _ h).2.2, hlf⟩

theorem singleLine_append (hs : ∀ c ∈ s, Single c) (t : CString) :
    singleLine (s ++ t) = s ++ singleLine t := by
  have happend (d : UInt8) (hd : ∀ c ∈ s, c ≠ 0 ∧ c ≠ d) (t : CString) : (s ++ t).remove_n d = s ++ t.remove_n d := by
    rw [remove_n, cStr, takeWhile_append_of_pos fun c hc => by simpa using (hd c hc).1, filter_append,
      filter_eq_self.2 fun c hc => by simpa using (hd c hc).2]
    rfl
  rw [singleLine, happend _ fun c hc => ⟨(hs c hc).1, (hs c hc).2.1⟩,
    happend _ fun c hc => ⟨(hs c hc).1, (hs c hc).2.2⟩, singleLine]

theorem singleLine_eq_self (hs : ∀ c ∈ s, Single c) : singleLine s = s := by
  have h := singleLine_append hs []
  rw [append_nil] at h
  exact h.trans (append_nil s)

theorem trimLeft_append {cs t : CString} (hs : ∀ c ∈ s, c ∈ cs) (ht : ∀ c ∈ t.head?, c ∉ cs) :
    (s ++ t).trimLeft cs = t := by
  rw [CString.trimLeft, dropWhile_append_of_pos fun c hc => by simpa using hs c hc]
  cases t with
  | nil => rfl
  | cons c t => rw [dropWhile_cons_of_neg (by simpa using ht c rfl)]

theorem trimRight_append {cs t : CString} (ht : ∀ c ∈ t, c ∈ cs) (hs : ∀ c ∈ s.getLast?, c ∉ cs) :
    (s ++ t).trimRight_n cs = s := by
  have hleft : CString.trimLeft (t.reverse ++ s.reverse) cs = s.reverse :=
    trimLeft_append (by simpa using ht) (by simpa using hs)
  rw [trimRight_n, reverse_append]
  exact (congrArg List.reverse hleft).trans (reverse_reverse s)

theorem trim_append {w b : CString} (hne : w ≠ []) (hfirst : ∀ c ∈ w.head?, c ∉ blanks)
    (hlast : ∀ c ∈ w.getLast?, c ∉ blanks) (hb : ∀ c ∈ b, c ∈ blanks) : trim (w ++ b) = w := by
  have hhead : ∀ c ∈ (w ++ b).head?, c ∉ blanks := by
    rw [head?_append_of_ne_nil _ hne]
    exact hfirst
  calc trim (w ++ b) = (w ++ b).trimRight_n blanks := by
        have hleft := trimLeft_append (s := []) (t := w ++ b) (fun c hc => nomatch hc) hhead
        rw [nil_append] at hleft
        rw [trim, hleft]
    _ = w := trimRight_append hb hlast

theorem head_of_startsWith {p : CString} {c : UInt8} (hc0 : c ≠ 0) (hc : isalpha c = false)
    (h : s.startsWith (c :: p) = true) : s.head? = some c := by
  have heq : (s.left (c :: p).length).cStr.asLower = CString.asLower (CString.cStr (c :: p)) := by
    simpa [startsWith, equals] using h
  cases s with
  | nil => simp [left, cStr, asLower, hc0] at heq
  | cons b s =>
    by_cases hb : b = 0
    · simp [left, cStr, asLower, hc0, hb] at heq
    · have hfirst : tolower b = tolower c := by
        simp only [left, length_cons, take_succ_cons, cStr, asLower] at heq
        rw [takeWhile_cons_of_pos (by simpa using hb), takeWhile_cons_of_pos (by simpa using hc0)] at heq
        exact (List.cons.inj heq).1
      rw [(tolower_eq_iff hc).2 rfl] at hfirst
      rw [(tolower_eq_iff hc).1 hfirst]
      rfl

/-- not empty, on one line, and without blanks at its ends -/
structure Tidy (s : CString) : Prop where
  ne : s ≠ []
  single : ∀ c ∈ s, Single c
  first : ∀ c ∈ s.head?, c ∉ blanks
  last : ∀ c ∈ s.getLast?, c ∉ blanks

instance Tidy.decidable (s : CString) : Decidable (Tidy s) :=
  have : Decidable (∀ c ∈ s, Single c) := List.decidableBAll _ s
  have : Decidable (∀ c ∈ s.head?, c ∉ blanks) := Option.decidableForallMem s.head?
  have : Decidable (∀ c ∈ s.getLast?, c ∉ blanks) := Option.decidableForallMem s.getLast?
  decidable_of_iff (s ≠ [] ∧ (∀ c ∈ s, Single c) ∧ (∀ c ∈ s.head?, c ∉ blanks) ∧ ∀ c ∈ s.getLast?, c ∉ blanks)
    ⟨fun ⟨h1, h2, h3, h4⟩ => ⟨h1, h2, h3, h4⟩, fun h => ⟨h.ne, h.single, h.first, h.last⟩⟩

theorem Tidy.trim_append {pre post : CString} (h : Tidy s) (hpre : ∀ c ∈ pre, c ∈ blanks)
    (hpost : ∀ c ∈ post, c ∈ blanks) :
    trim (pre ++ s ++ post) = s := by
  have hfirst : ∀ c ∈ (s ++ post).head?, c ∉ blanks := by
    rw [head?_append_of_ne_nil _ h.ne]
    exact h.first
  rw [trim, append_assoc, trimLeft_append hpre hfirst, trimRight_append hpost h.last]

theorem Tidy.trim_eq (h : Tidy s) : trim s = s := by
  have hempty (c : UInt8) (hc : c ∈ ([] : CString)) : c ∈ blanks := nomatch hc
  have htrim := h.trim_append hempty hempty
  rwa [nil_append, append_nil] at htrim

/-! ## Lines -/

namespace ParseState

/-- the state at a line, with another active config -/
def atLine (st : ParseState) (uLineNum : ℕ) (c : CConfig) : ParseState := { st with uLineNum }.setActiveConfig c

variable (st : ParseState)

@[simp] theorem activeConfig_at (uLineNum : ℕ) (c : CConfig) :
    (st.atLine uLineNum c).activeConfig = c := by
  cases hstack : st.configStack <;> simp [atLine, setActiveConfig, activeConfig, hstack]

@[simp] theorem at_at (u v : ℕ) (c d : CConfig) : (st.atLine u c).atLine v d = st.atLine v d := by
  cases hstack : st.configStack <;> simp [atLine, setActiveConfig, hstack]

@[simp] theorem bCommented_at (u : ℕ) (c : CConfig) : (st.atLine u c).bCommented = st.bCommented := by
  cases hstack : st.configStack <;> simp [atLine, setActiveConfig, hstack]

theorem at_self (u : ℕ) : st.atLine u st.activeConfig = { st with uLineNum := u } := by
  cases hstack : st.configStack <;> simp [atLine, setActiveConfig, activeConfig, hstack]

theorem parseLines_append {sLine : CString} (hline : ∀ c ∈ sLine, Single c) (sText : CString) :
    st.parseLines (sLine ++ lit "\n" ++ sText) = (st.parseLine (sLine ++ lit "\n")).bind fun st' =>
      st'.parseLines sText := by
  have hlf : ch '\n' ∉ sLine := fun h => (hline _ h).2.2 rfl
  have hlines := Lines.lines_append hlf sText
  rw [parseLines, append_assoc]
  have hlit : lit "\n" ++ sText = ch '\n' :: sText := rfl
  rw [hlit, hlines, foldlM_cons]
  rfl

theorem parseLine_indented (iIndentation : ℕ) {sLine : CString} (hsome : sLine ≠ []) (hsingle : ∀ c ∈ sLine, Single c)
    (hfirst : ∀ c ∈ sLine.head?, c ∉ blanks) :
    st.parseLine (indentation iIndentation ++ sLine ++ lit "\n") =
      { st with uLineNum := st.uLineNum + 1 }.trimmedLine sLine := by
  have htabs : ∀ c ∈ indentation iIndentation, c ∈ blanks := by
    intro c hc
    rw [eq_of_mem_replicate hc]
    decide
  have hhead : ∀ c ∈ (sLine ++ lit "\n").head?, c ∉ blanks := by
    rw [head?_append_of_ne_nil _ hsome]
    exact hfirst
  have hend : ∀ c ∈ sLine.getLast?, c ∉ lit "\r\n" := by
    intro c hc hmem
    obtain ⟨-, hcr, hlf⟩ := hsingle c (mem_of_getLast? hc)
    rcases mem_cons.1 hmem with rfl | hmem
    · exact hcr rfl
    · exact hlf (mem_singleton.1 hmem)
  have hlf : ∀ c ∈ lit "\n", c ∈ lit "\r\n" := by decide +kernel
  rw [parseLine, append_assoc, trimLeft_append htabs hhead, trimRight_append hlf hend]

end ParseState

/-- a key that is read as it is written, if it does not begin like a comment or a tag -/
structure KeyOk (sName : CString) : Prop extends Tidy sName where
  noEquals : ch '=' ∉ sName

/-- a tag that is read as it is written -/
structure TagOk (sTag : CString) : Prop extends Tidy sTag where
  noSpace : 0x20 ∉ sTag
  noSlash : sTag.head? ≠ some (ch '/')

instance KeyOk.decidable (sName : CString) : Decidable (KeyOk sName) :=
  decidable_of_iff (Tidy sName ∧ ch '=' ∉ sName) ⟨fun h => ⟨h.1, h.2⟩, fun h => ⟨h.toTidy, h.noEquals⟩⟩

instance TagOk.decidable (sTag : CString) : Decidable (TagOk sTag) :=
  decidable_of_iff (Tidy sTag ∧ 0x20 ∉ sTag ∧ sTag.head? ≠ some (ch '/'))
    ⟨fun h => ⟨h.1, h.2.1, h.2.2⟩, fun h => ⟨h.toTidy, h.noSpace, h.noSlash⟩⟩

/-- the first bytes of comments and tags -/
def marks : CString := lit "<#/"

theorem keys_good {keys : List CString} (h : keys.all (fun k => decide (KeyOk k) && k.head?.all (· ∉ marks)) = true) :
    ∀ k ∈ keys, KeyOk k ∧ ∀ b ∈ k.head?, b ∉ marks := by
  intro k hk
  obtain ⟨hkey, hfirst⟩ := Bool.and_eq_true_iff.1 (all_eq_true.1 h k hk)
  exact ⟨of_decide_eq_true hkey, fun b hb => of_decide_eq_true ((Option.all_eq_true _ _).1 hfirst b hb)⟩

theorem startsWith_byte {c : UInt8} (hc0 : c ≠ 0) (hc : isalpha c = false) :
    s.startsWith [c] = true ↔ s.head? = some c := by
  refine startsWith_singleton (fun b => ?_) hc0
  rw [(tolower_eq_iff hc).2 rfl]
  exact tolower_eq_iff hc

theorem trimPrefix_byte {c : UInt8} (hc0 : c ≠ 0) (hc : isalpha c = false) (s : CString) :
    CString.trimPrefix_n (c :: s) [c] = s := by
  rw [trimPrefix_n, if_pos ((startsWith_byte hc0 hc).2 rfl)]
  rfl

namespace ParseState

variable (st : ParseState)

theorem trimmedLine_plain (hst : st.bCommented = false) {sLine : CString} {b : UInt8} (hhead : sLine.head? = some b)
    (hslash : b ≠ ch '/') (hhash : b ≠ ch '#') :
    st.trimmedLine sLine =
      if sLine.startsWith (lit "<") && sLine.endsWith (lit ">") then st.tagLine sLine else st.regularLine sLine := by
  have hno {c : UInt8} (hc0 : c ≠ 0) (hc : isalpha c = false) (hne : b ≠ c) (p : CString) :
      ¬sLine.startsWith (c :: p) = true := by
    intro h
    exact hne (Option.some.inj (hhead.symm.trans (head_of_startsWith hc0 hc h)))
  have hcomment : ¬sLine.startsWith (lit "/*") = true := hno (by decide) (by decide) hslash (lit "*")
  have hskip : ¬(decide (sLine = []) || sLine.startsWith (lit "#") || sLine.startsWith (lit "//")) = true := by
    simp only [Bool.or_eq_true, decide_eq_true_eq, not_or]
    refine ⟨⟨fun hnil => ?_, hno (by decide) (by decide) hhash []⟩, hno (by decide) (by decide) hslash (lit "/")⟩
    rw [hnil] at hhead
    cases hhead
  rw [trimmedLine, hst, Bool.false_or, if_neg hcomment, if_neg hskip]

theorem trimmedLine_entry (hst : st.bCommented = false) {sName : CString} (hkey : KeyOk sName)
    (hmark : ∀ c ∈ sName.head?, c ∉ marks) (sValue : CString) :
    st.trimmedLine (sName ++ lit " = " ++ sValue) =
      if sValue = [] then st.error (lit "Malformed line")
      else .ok (st.setActiveConfig { st.activeConfig with
        configEntries := EntryMap.pushBack st.activeConfig.configEntries sName.asLower sValue }) := by
  have hsplit : sName ++ lit " = " ++ sValue = (sName ++ lit " ") ++ ch '=' :: (lit " " ++ sValue) := by
    rw [append_assoc, append_assoc]
    rfl
  obtain ⟨b, hb⟩ := Option.ne_none_iff_exists'.1 (mt head?_eq_none_iff.1 hkey.ne)
  have hhead : (sName ++ lit " = " ++ sValue).head? = some b := by
    rw [append_assoc, head?_append_of_ne_nil _ hkey.ne, hb]
  have hbyte {c : UInt8} (hc : c ∈ marks) : b ≠ c := fun h => hmark b hb (h ▸ hc)
  have htag : ¬(sName ++ lit " = " ++ sValue).startsWith (lit "<") = true := by
    intro h
    exact hbyte (by decide) (Option.some.inj (hhead.symm.trans (head_of_startsWith (by decide) (by decide) h)))
  have hequals : ch '=' ∉ sName ++ lit " " := by
    rw [mem_append, not_or]
    exact ⟨hkey.noEquals, by decide⟩
  have hzero : (sName ++ lit " = " ++ sValue).token 0 false (ch '=') false = sName ++ lit " " := by
    rw [hsplit, token_zero_append (by simp [hkey.ne]) hequals]
  have hrest : (sName ++ lit " = " ++ sValue).token 1 true (ch '=') false = lit " " ++ sValue := by
    rw [hsplit, token_rest (by simp [hkey.ne]) hequals]
    exact dropWhile_cons_of_neg (by decide)
  have hblank : ∀ c ∈ lit " ", c ∈ blanks := by decide +kernel
  have hname : trim (sName ++ lit " ") = sName :=
    hkey.toTidy.trim_append (fun c hc => absurd hc List.not_mem_nil) hblank
  have hvalue : (lit " " ++ sValue).trimPrefix_n (lit " ") = sValue := trimPrefix_byte (by decide) (by decide) sValue
  rw [trimmedLine_plain st hst hhead (hbyte (by decide)) (hbyte (by decide)),
    if_neg fun h => htag (Bool.and_eq_true_iff.1 h).1, regularLine, hzero, hrest, hname, hvalue]
  simp only [hkey.ne, false_or]

theorem trimmedLine_tag (hst : st.bCommented = false) (s : CString) :
    st.trimmedLine (lit "<" ++ s ++ lit ">") = st.tagLine (lit "<" ++ s ++ lit ">") := by
  have hopen : (lit "<" ++ s ++ lit ">").startsWith (lit "<") = true := (startsWith_byte (by decide) (by decide)).2 rfl
  have hright : (lit "<" ++ s ++ lit ">").right (lit ">").length = lit ">" := by
    rw [right, length_append, Nat.add_sub_cancel, drop_left]
  have hclose : (lit "<" ++ s ++ lit ">").endsWith (lit ">") = true := by rw [endsWith, hright, equals_refl]
  rw [trimmedLine_plain st hst rfl (by decide) (by decide), hopen, hclose, Bool.and_self, if_pos rfl]

theorem drop_dropLast (s : CString) : ((lit "<" ++ s ++ lit ">").drop 1).dropLast = s := by
  have hdrop : (lit "<" ++ s ++ lit ">").drop 1 = s ++ lit ">" := rfl
  rw [hdrop]
  exact dropLast_concat

theorem trimmedLine_open (hst : st.bCommented = false) {sTag sName : CString} (htag : TagOk sTag) (hname : Tidy sName) :
    st.trimmedLine (lit "<" ++ (sTag ++ lit " " ++ sName) ++ lit ">") =
      .ok { st with configStack := ⟨sTag.asLower, sName, .empty⟩ :: st.configStack } := by
  have htidy : Tidy (sTag ++ lit " " ++ sName) := by
    refine ⟨by simp [htag.ne], fun c hc => ?_, ?_, ?_⟩
    · rcases mem_append.1 hc with hc | hc
      · rcases mem_append.1 hc with hc | hc
        · exact htag.single c hc
        · rw [mem_singleton.1 hc]
          decide
      · exact hname.single c hc
    · rw [append_assoc, head?_append_of_ne_nil _ htag.ne]
      exact htag.first
    · rw [getLast?_append_of_ne_nil _ hname.ne]
      exact hname.last
  have hsplit : sTag ++ lit " " ++ sName = sTag ++ 0x20 :: sName := append_assoc _ _ _
  have hzero : (sTag ++ lit " " ++ sName).token 0 false 0x20 false = sTag := by
    rw [hsplit, token_zero_append htag.ne htag.noSpace]
  have hfirst : sName.dropWhile (· = 0x20) = sName := by
    cases sName with
    | nil => rfl
    | cons c s =>
      refine dropWhile_cons_of_neg fun h => hname.first c rfl ?_
      rw [show c = 0x20 by simpa using h]
      decide
  have hrest : (sTag ++ lit " " ++ sName).token 1 true 0x20 false = sName := by
    rw [hsplit, token_rest htag.ne htag.noSpace, hfirst]
  have hslash : ¬sTag.startsWith (lit "/") = true :=
    fun h => htag.noSlash ((startsWith_byte (by decide) (by decide)).1 h)
  rw [trimmedLine_tag st hst, tagLine]
  simp only [drop_dropLast, htidy.trim_eq, hzero, hrest, htag.toTidy.trim_eq, hname.trim_eq]
  rw [if_neg hslash, openTag, if_neg hname.ne]

theorem trimmedLine_close (hst : st.bCommented = false) {sTag : CString} (htag : TagOk sTag) :
    st.trimmedLine (lit "<" ++ (lit "/" ++ sTag) ++ lit ">") = st.closeTag sTag [] := by
  have htidy : Tidy (lit "/" ++ sTag) := by
    refine ⟨by simp [htag.ne], fun c hc => ?_, fun c hc => ?_, ?_⟩
    · rcases mem_append.1 hc with hc | hc
      · rw [mem_singleton.1 hc]
        decide
      · exact htag.single c hc
    · rw [← Option.some.inj hc]
      decide
    · rw [getLast?_append_of_ne_nil _ htag.ne]
      exact htag.last
  have hspace : 0x20 ∉ lit "/" ++ sTag := by
    rw [mem_append, not_or]
    exact ⟨by decide, htag.noSpace⟩
  have hslash : (lit "/" ++ sTag).startsWith (lit "/") = true := (startsWith_byte (by decide) (by decide)).2 rfl
  have hcut : (lit "/" ++ sTag).trimPrefix_n (lit "/") = sTag := trimPrefix_byte (by decide) (by decide) sTag
  rw [trimmedLine_tag st hst, tagLine]
  simp only [drop_dropLast, htidy.trim_eq, token_zero_of_not_mem hspace, token_rest_of_not_mem hspace]
  rw [if_pos hslash, hcut]
  rfl

end ParseState

end ZNC.Config
