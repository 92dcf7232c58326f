/-
IRC messages: `CMessage` of `src/Message.cpp`.

`Parse` reads a line into an existing object by walking over its words: an optional word of tags, an optional prefix, the
command and the parameters. `ToString` prints the parts in the same order. Both go through `Escape_n` for the tag values,
so either may not return (`none`); `GetParamsColon` counts the parameters in 32 bits.

The clock and the conversion of the `time` tag come from the C library through `CUtils`; they are parameters. The pointers
to network, client and channel are left out: nothing modelled reads them.

Results:
- `parse_eq`: what `Parse` does to an object, in one equation;
- `parse_content_congr_iff`: two objects agree after parsing a line exactly when they agreed on the parts of the nick
  which the prefix of the line leaves alone; everything else depends on the line only;
- `parse_keeps_nick`: a line without a prefix leaves the sender of an earlier line in place.
-/
import ZNC.Escape
import ZNC.Nick

namespace ZNC

open Words

/-! ## Model -/

structure timeval where
  tv_sec : ℤ
  tv_usec : ℤ
deriving DecidableEq, Repr

/-- the time functions of `CUtils` -/
structure CUtils where
  getTime : timeval
  parseServerTime : CString → timeval
  formatServerTime : timeval → CString

/-- `CMessage::Type` -/
inductive EType where
  | Unknown
  | Account
  | Action
  | Authenticate
  | Away
  | Capability
  | ChgHost
  | CTCP
  | Error
  | Invite
  | Join
  | Kick
  | Mode
  | Nick
  | Notice
  | Numeric
  | Part
  | Ping
  | Pong
  | Quit
  | TagMsg
  | Text
  | Topic
  | Wallops
deriving DecidableEq, Repr

@[ext] structure CMessage where
  nick : CNick
  sCommand : CString
  vsParams : VCString
  mssTags : MCString
  time : timeval
  eType : EType
  bColon : Bool
deriving DecidableEq

namespace CMessage

def getParam (m : CMessage) (uIdx : UInt32) : CString := m.vsParams.getD uIdx.toNat []

def getTag (m : CMessage) (sKey : CString) : CString := (m.mssTags.find sKey).getD []

def setTag (m : CMessage) (sKey sValue : CString) : CMessage := { m with mssTags := m.mssTags.insert sKey sValue }

/-! ## Types -/

/-- the table of `InitType` -/
def mTypes : List (CString × EType) :=
  [(lit "ACCOUNT", .Account),
   (lit "AUTHENTICATE", .Authenticate),
   (lit "AWAY", .Away),
   (lit "CAP", .Capability),
   (lit "CHGHOST", .ChgHost),
   (lit "ERROR", .Error),
   (lit "INVITE", .Invite),
   (lit "JOIN", .Join),
   (lit "KICK", .Kick),
   (lit "MODE", .Mode),
   (lit "NICK", .Nick),
   (lit "PART", .Part),
   (lit "PING", .Ping),
   (lit "PONG", .Pong),
   (lit "QUIT", .Quit),
   (lit "TAGMSG", .TagMsg),
   (lit "TOPIC", .Topic),
   (lit "WALLOPS", .Wallops)]

/-- three digits -/
def isNumeric (sCommand : CString) : Bool := sCommand.length = 3 && sCommand.all isdigit

/-- the byte that wraps a CTCP -/
def soh : CString := [0x01]

/-- the type that `InitType` finds for a command and the parameter 1 -/
def typeOf (sCommand sParam : CString) : EType :=
  if isNumeric sCommand then .Numeric
  else if sCommand.equals (lit "PRIVMSG") then
    -- `TrimPrefix` has cut the first byte when the end is looked at
    if sParam.startsWith soh && (sParam.trimPrefix_n soh).endsWith soh then
      if (sParam.trimPrefix_n soh).startsWith (lit "ACTION ") then .Action else .CTCP
    else .Text
  else if sCommand.equals (lit "NOTICE") then
    if sParam.startsWith soh && sParam.endsWith soh then .CTCP else .Notice
  else (mTypes.lookup sCommand.asUpper).getD .Unknown

def initType (m : CMessage) : CMessage := { m with eType := typeOf m.sCommand (m.getParam 1) }

def setCommand (m : CMessage) (sCommand : CString) : CMessage := initType { m with sCommand := sCommand }

/-- the types whose message text decides about them -/
def hasText (t : EType) : Bool := t = .Text || t = .Notice || t = .Action || t = .CTCP

/-- `SetParams(vsParams)`, of either kind of reference -/
def setParams (m : CMessage) (vsParams : VCString) : CMessage :=
  let m := { m with vsParams := vsParams, bColon := false }
  if hasText m.eType then m.initType else m

/-- `v.resize(n)` -/
def resize (v : VCString) (n : ℕ) : VCString := v.take n ++ List.replicate (n - v.length) []

/-- `SetParam(uIdx, sParam)`; nothing is said about a write past the end, which `uIdx + 1 == 0` leads to -/
def setParam (m : CMessage) (uIdx : UInt32) (sParam : CString) : Option CMessage :=
  let vsParams := if m.vsParams.length ≤ uIdx.toNat then resize m.vsParams (uIdx + 1).toNat else m.vsParams
  if vsParams.length ≤ uIdx.toNat then none
  else
    let m := { m with vsParams := vsParams.set uIdx.toNat sParam }
    some (if uIdx = 1 && hasText m.eType then m.initType else m)

/-! ## Parsing -/

def nextWord (begin : CString) : CString × CString := word (ch ' ') begin

/-- `if (begin < end && *begin == c) next_word().substr(1)` -/
def takePart (c : UInt8) (begin : CString) : Option CString × CString :=
  if begin.head? = some c then (some ((nextWord begin).1.drop 1), (nextWord begin).2) else (none, begin)

/-- one round of "Save key and value" -/
def saveTag (mssTags : MCString) (svTag : CString) : Option MCString :=
  let (sKey, sValue) := (cut (ch '=') svTag).getD (svTag, [])
  (CString.escape_n sValue .EMSGTAG .EASCII).map (mssTags.insert sKey)

/-- the tags of the word behind the '@' -/
def parseTags (svTags : Option CString) : Option MCString :=
  match svTags with
  | none => some .empty
  | some svTags => (svTags.splitOn (ch ';')).foldlM saveTag .empty

/-- the loop over the parameters: `m_vsParams` and `m_bColon` -/
def parseParams : CString → VCString × Bool
  | [] => ([], false)
  | c :: l =>
    if c = ch ':' then ([l], true)
    else
      let r := parseParams (nextWord (c :: l)).2
      ((nextWord (c :: l)).1 :: r.1, r.2)
termination_by begin => begin.length
decreasing_by exact length_word_lt _ (List.cons_ne_nil _ _)

/-- the prefix of a line, without its colon -/
def prefixOf (sMessage : CString) : Option CString := (takePart (ch ':') (takePart (ch '@') sMessage).2).1

/-- `m_Nick` after the prefix, if there is one -/
def parsedNick (n : CNick) : Option CString → CNick
  | none => n
  | some sPrefix => n.parse sPrefix

def parse (m : CMessage) (sMessage : CString) : Option CMessage :=
  let (svTags, begin) := takePart (ch '@') sMessage
  match parseTags svTags with
  | none => none
  | some mssTags =>
    let (sPrefix, begin) := takePart (ch ':') begin
    let nick := parsedNick m.nick sPrefix
    let (sCommand, begin) := nextWord begin
    let (vsParams, bColon) := parseParams begin
    some (initType { m with
      nick := nick
      sCommand := sCommand
      vsParams := vsParams
      mssTags := mssTags
      bColon := bColon })

/-! ## Printing -/

/-- `CMessage::FormatFlags` -/
def IncludeAll : UInt32 := 0x0

def ExcludePrefix : UInt32 := 0x1

def ExcludeTags : UInt32 := 0x2

/-- the loop of `GetParamsColon` from `i` on; an index past the last parameter is undefined -/
def paramsFrom (m : CMessage) (uParams uEnd i : UInt32) : Option VCString :=
  if _h : i < uEnd then
    match m.vsParams[i.toNat]? with
    | none => none
    | some sParam =>
      let sParam :=
        if i = uParams - 1 && (m.bColon || sParam = [] || sParam.startsWith (lit ":") || sParam.contains (lit " ")) then
          ch ':' :: sParam
        else sParam
      (paramsFrom m uParams uEnd (i + 1)).map (sParam :: ·)
  else some []
termination_by uEnd.toNat - i.toNat
decreasing_by
  have h : i.toNat < uEnd.toNat := UInt32.lt_iff_toNat_lt.1 _h
  have := uEnd.toNat_lt
  rw [UInt32.toNat_add, UInt32.toNat_one, Nat.mod_eq_of_lt (by omega)]
  omega

/-- `GetParamsColon(uIdx, uLen)`: sizes have 64 bits, the counters 32 -/
def getParamsColon (m : CMessage) (uIdx uLen : UInt32) : Option CString :=
  if m.vsParams = [] || uLen = 0 then some []
  else
    let size := UInt64.ofNat m.vsParams.length
    let uLen := if uLen.toUInt64 > size - uIdx.toUInt64 - 1 then (size - uIdx.toUInt64).toUInt32 else uLen
    (m.paramsFrom size.toUInt32 (uIdx + uLen) uIdx).map (lit " ").join

def tagText (it : CString × CString) : Option CString :=
  if it.2 = [] then some it.1 else (it.2.escape_n .EASCII .EMSGTAG).map fun sValue => it.1 ++ ch '=' :: sValue

/-- the loop over the tags -/
def tagsText (mssTags : MCString) : Option CString :=
  mssTags.entries.foldlM (fun sTags it =>
    (tagText it).map fun sTag => if sTags = [] then sTag else sTags ++ ch ';' :: sTag) []

/-- `if (!sMessage.empty()) sMessage += " "; sMessage += sPart` -/
def appendPart (sMessage sPart : CString) : CString := if sMessage = [] then sPart else sMessage ++ ch ' ' :: sPart

def toString (m : CMessage) (uFlags : UInt32) : Option CString :=
  let sMessage :=
    if uFlags &&& ExcludeTags = 0 && !m.mssTags.isEmpty then (tagsText m.mssTags).map (ch '@' :: ·) else some []
  match sMessage with
  | none => none
  | some sMessage =>
    let sPrefix := m.nick.getHostMask
    let sMessage :=
      if uFlags &&& ExcludePrefix = 0 && sPrefix ≠ [] then appendPart sMessage (ch ':' :: sPrefix) else sMessage
    let sMessage := if m.sCommand ≠ [] then appendPart sMessage m.sCommand else sMessage
    if m.vsParams ≠ [] then (m.getParamsColon 0 0xFFFFFFFF).map (appendPart sMessage) else some sMessage

/-! ## Constructors -/

/-- an object before its constructor's body has run -/
def blank (utils : CUtils) : CMessage := ⟨.empty, [], [], .empty, utils.getTime, .Unknown, false⟩

def initTime (utils : CUtils) (m : CMessage) : CMessage :=
  { m with time := match m.mssTags.find (lit "time") with
    | some sTime => utils.parseServerTime sTime
    | none => utils.getTime }

/-- `CMessage(sMessage)` -/
def ofLine (utils : CUtils) (sMessage : CString) : Option CMessage :=
  ((blank utils).parse sMessage).map (initTime utils)

/-- `CMessage(Nick, sCommand, vsParams, mssTags)` -/
def ofParts (utils : CUtils) (nick : CNick) (sCommand : CString) (vsParams : VCString)
    (mssTags : MCString) : CMessage :=
  initTime utils { blank utils with nick := nick, sCommand := sCommand, vsParams := vsParams, mssTags := mssTags }

/-- `CMessage()` -/
def ofNothing (utils : CUtils) : Option CMessage := ofLine utils []

/-! ## Growing the parameters -/

theorem length_resize (v : VCString) (n : ℕ) : (resize v n).length = n := by
  rw [resize, List.length_append, List.length_take, List.length_replicate]
  omega

theorem getD_resize {v : VCString} {n : ℕ} (h : v.length ≤ n) (i : ℕ) : (resize v n).getD i [] = v.getD i [] := by
  rw [resize, List.take_of_length_le h, List.getD_eq_getElem?_getD, List.getD_eq_getElem?_getD, List.getElem?_append,
    List.getElem?_replicate]
  split_ifs with h1 h2
  · rfl
  · rw [List.getElem?_eq_none (not_lt.1 h1)]; rfl
  · rw [List.getElem?_eq_none (not_lt.1 h1)]

/-! ## What a line decides -/

/-- what can be read off a message, its time apart -/
def content (m : CMessage) : CNick × CString × VCString × MCString × EType :=
  (m.nick, m.sCommand, m.vsParams, m.mssTags, m.eType)

/-- the parts of a line behind the prefix -/
def commandPart (sMessage : CString) : CString × CString :=
  nextWord (takePart (ch ':') (takePart (ch '@') sMessage).2).2

/-- **What `Parse` does to an object**: the nick is parsed into the old one, the rest is overwritten. -/
theorem parse_eq (m : CMessage) (sMessage : CString) :
    m.parse sMessage = (parseTags (takePart (ch '@') sMessage).1).map fun mssTags =>
      { nick := parsedNick m.nick (prefixOf sMessage)
        sCommand := (commandPart sMessage).1
        vsParams := (parseParams (commandPart sMessage).2).1
        mssTags := mssTags
        time := m.time
        eType := typeOf (commandPart sMessage).1 ((parseParams (commandPart sMessage).2).1.getD 1 [])
        bColon := (parseParams (commandPart sMessage).2).2 } := by
  unfold parse prefixOf commandPart
  rcases takePart (ch '@') sMessage with ⟨svTags, begin⟩
  simp only
  cases parseTags svTags with
  | none => rfl
  | some mssTags => rfl

/-- the parts of the nick that the prefix of a line leaves alone -/
def AgreeBeyond (sMessage : CString) (n1 n2 : CNick) : Prop :=
  match prefixOf sMessage with
  | none => n1 = n2
  | some sPrefix => CNick.AgreeBeyond sPrefix n1 n2

instance (sMessage : CString) (n1 n2 : CNick) : Decidable (AgreeBeyond sMessage n1 n2) :=
  match h : prefixOf sMessage with
  | none => decidable_of_iff (n1 = n2) (by simp only [AgreeBeyond, h])
  | some sPrefix => decidable_of_iff (CNick.AgreeBeyond sPrefix n1 n2) (by simp only [AgreeBeyond, h])

theorem parsedNick_congr_iff (sMessage : CString) (n1 n2 : CNick) :
    parsedNick n1 (prefixOf sMessage) = parsedNick n2 (prefixOf sMessage) ↔ AgreeBeyond sMessage n1 n2 := by
  unfold AgreeBeyond
  cases prefixOf sMessage with
  | none => exact Iff.rfl
  | some sPrefix => exact CNick.parse_congr_iff sPrefix n1 n2

/-- **Two objects after the same line.** Whatever they held, they agree after `Parse` exactly when their nicks agreed on
the parts that the prefix of the line leaves alone: all of it without a prefix, user and host for a prefix without '!', the
user for one without '@' behind the '!'. -/
theorem parse_content_congr_iff (sMessage : CString) (m1 m2 r1 r2 : CMessage) (h1 : m1.parse sMessage = some r1)
    (h2 : m2.parse sMessage = some r2) : r1.content = r2.content ↔ AgreeBeyond sMessage m1.nick m2.nick := by
  rw [parse_eq, Option.map_eq_some_iff] at h1 h2
  obtain ⟨mssTags, htags, rfl⟩ := h1
  obtain ⟨mssTags', htags', rfl⟩ := h2
  rw [htags, Option.some_inj] at htags'
  subst htags'
  rw [← parsedNick_congr_iff]
  simp [content]

/-- time functions that know no time -/
def stoppedClock : CUtils := ⟨⟨0, 0⟩, fun _ => ⟨0, 0⟩, fun _ => []⟩

/-- a message from a nick, for lines to be parsed into -/
def sampleFrom (nick : CNick) : CMessage := { blank stoppedClock with nick := nick }

/-- a full prefix leaves nothing of an old nick -/
theorem parse_content_congr_full :
    ∃ r1 r2, (sampleFrom ⟨lit "a", lit "b", lit "c"⟩).parse (lit ":n!u@h PING") = some r1 ∧
      (sampleFrom .empty).parse (lit ":n!u@h PING") = some r2 ∧ r1.content = r2.content := by
  have h1 : (sampleFrom ⟨lit "a", lit "b", lit "c"⟩).parse (lit ":n!u@h PING") =
      some { sampleFrom ⟨lit "n", lit "u", lit "h"⟩ with sCommand := lit "PING", eType := .Ping } := by decide +kernel
  have h2 : (sampleFrom .empty).parse (lit ":n!u@h PING") =
      some { sampleFrom ⟨lit "n", lit "u", lit "h"⟩ with sCommand := lit "PING", eType := .Ping } := by decide +kernel
  exact ⟨_, _, h1, h2, (parse_content_congr_iff _ _ _ _ _ h1 h2).2 (by decide)⟩

/-- without a prefix the sender of an earlier line stays -/
theorem parse_keeps_nick :
    ∃ r1 r2, (sampleFrom ⟨lit "a", lit "b", lit "c"⟩).parse (lit "PING") = some r1 ∧
      (sampleFrom .empty).parse (lit "PING") = some r2 ∧ r1.nick = ⟨lit "a", lit "b", lit "c"⟩ ∧ r2.nick = .empty ∧
      r1.content ≠ r2.content := by
  have h1 : (sampleFrom ⟨lit "a", lit "b", lit "c"⟩).parse (lit "PING") =
      some { sampleFrom ⟨lit "a", lit "b", lit "c"⟩ with sCommand := lit "PING", eType := .Ping } := by decide +kernel
  have h2 : (sampleFrom .empty).parse (lit "PING") =
      some { sampleFrom .empty with sCommand := lit "PING", eType := .Ping } := by decide +kernel
  exact ⟨_, _, h1, h2, rfl, rfl, by decide⟩

end CMessage

end ZNC
