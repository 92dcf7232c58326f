/-
Templates: `CTemplate::Print` of `src/Template.cpp`.

`Print` reads a file line by line and looks for tags `<? ... ?>` in each line. What stands between the tags goes to the output
unless something is being skipped. Conditionals and comments are skipped by a counter, a loop is repeated by seeking back to
the place behind its tag, and a line that has tags and comes out blank is left out.

Model: a line is cut into its pieces first, since where its tags are does not depend on anything else. The rows of loops have any
type; `CTemplate` is what a template is asked: the loops of a row, and the value of a variable and of a condition under the
loops that are open. The other tags and included files are not there, and no results are about loops that sort their rows.
-/
import ZNC.Config

namespace ZNC.Template

open CString

/-! ## Lines -/

/-- what stands before and behind the first two bytes `a`, `b` -/
def cutAt (a b : UInt8) : CString → Option (CString × CString)
  | c :: d :: s =>
    if c = a ∧ d = b then some ([], s) else (cutAt a b (d :: s)).map fun (sBefore, sBehind) => (c :: sBefore, sBehind)
  | _ => none

/-- what `Print` finds in a line -/
inductive Piece where
  | text (s : CString)
  /-- `sMid`, the place in the file behind it, and the rest of the line -/
  | tag (sMid : CString) (uCurPos : ℕ) (sLine : CString)
  /-- a tag with another one inside -/
  | malformed
  /-- a tag without its end -/
  | unended
deriving DecidableEq

/-- the `find`s of `Print`: each round takes two bytes at least -/
def piecesLoop : ℕ → ℕ → CString → List Piece
  | 0, _, sLine => [.text sLine]
  | fuel + 1, uCurPos, sLine =>
    match cutAt (ch '<') (ch '?') sLine with
    | none => [.text sLine]
    | some (sBefore, sLine) =>
      .text sBefore :: match cutAt (ch '?') (ch '>') sLine with
        | none => [.unended]
        | some (sInner, sBehind) =>
          let uCurPos := uCurPos + sBefore.length + sInner.length + 4
          let sMid := Config.trim sInner
          if sMid.contains (lit "<?") then .malformed :: piecesLoop fuel uCurPos sLine
          else .tag sMid uCurPos sBehind :: piecesLoop fuel uCurPos sBehind

/-- the pieces of a line from `uCurPos` on -/
def pieces (uCurPos : ℕ) (sLine : CString) : List Piece := piecesLoop sLine.length uCurPos sLine

inductive Action where
  | VAR
  | IF
  | ELSE
  | ENDIF
  | REM
  | ENDREM
  | LOOP
  | ENDLOOP
  | CONTINUE
  | BREAK
  | other
deriving DecidableEq

/-- `sAction`: the first word of a tag -/
def sAction (sMid : CString) : Action :=
  let s := sMid.token 0 false 0x20 false
  if s.equals (lit "VAR") then .VAR
  else if s.equals (lit "IF") then .IF
  else if s.equals (lit "ELSE") then .ELSE
  else if s.equals (lit "ENDIF") then .ENDIF
  else if s.equals (lit "REM") then .REM
  else if s.equals (lit "ENDREM") then .ENDREM
  else if s.equals (lit "LOOP") then .LOOP
  else if s.equals (lit "ENDLOOP") then .ENDLOOP
  else if s.equals (lit "CONTINUE") then .CONTINUE
  else if s.equals (lit "BREAK") then .BREAK
  else .other

/-- `sArgs`: its other words -/
def sArgs (sMid : CString) : CString := sMid.token 1 true 0x20 false

/-! ## Loops -/

variable {Tmpl : Type}

/-- where a loop is: what the values under it depend on -/
structure Cursor (Tmpl : Type) where
  bReverse : Bool
  vRows : List Tmpl
  uRowIndex : ℕ
deriving DecidableEq

def Cursor.curRow (cursor : Cursor Tmpl) : Option Tmpl :=
  let uSize := cursor.vRows.length
  if cursor.uRowIndex < uSize then
    if cursor.bReverse then cursor.vRows[uSize - cursor.uRowIndex - 1]? else cursor.vRows[cursor.uRowIndex]?
  else none

def Cursor.incRowIndex (cursor : Cursor Tmpl) : Cursor Tmpl := { cursor with uRowIndex := cursor.uRowIndex + 1 }

/-- `CTemplateLoopContext` -/
structure LoopContext (Tmpl : Type) where
  uFilePosition : ℕ
  cursor : Cursor Tmpl
  bHasData : Bool
deriving DecidableEq

/-- `CTemplate`: what `Print` asks it under the contexts of the open loops, the innermost first -/
structure CTemplate (Tmpl : Type) where
  /-- `m_mvLoops` of the template, and of a row -/
  mvLoops : Option Tmpl → CString → Option (List Tmpl)
  /-- `AddRow` alone makes a loop -/
  mvLoops_ne : ∀ row sName, mvLoops row sName ≠ some []
  /-- `GetValue(sArgs)` -/
  getValue : List (Cursor Tmpl) → CString → CString
  /-- `ValidIf(sArgs)` -/
  validIf : List (Cursor Tmpl) → CString → Bool

/-- `GetLoop(sName)`: in the current row, if there is one -/
def CTemplate.getLoop (tmpl : CTemplate Tmpl) (cursors : List (Cursor Tmpl)) (sName : CString) : Option (List Tmpl) :=
  tmpl.mvLoops (cursors.head?.bind Cursor.curRow) sName

/-- `bSort`: the tag of the loop sorts the rows -/
def bSort (sArgs : CString) : Bool := (sArgs.token 1 false 0x20 false).startsWith (lit "SORT")

/-- where the loop of a `LOOP` tag that does not sort starts, if there are rows for it -/
def CTemplate.newLoop (tmpl : CTemplate Tmpl) (cursors : List (Cursor Tmpl)) (sArgs : CString) : Option (Cursor Tmpl) :=
  (tmpl.getLoop cursors (sArgs.token 0 false 0x20 false)).map fun pvLoop =>
    ⟨(sArgs.token 1 false 0x20 false).equals (lit "REVERSE"), pvLoop, 0⟩

/-! ## Printing -/

/-- what `Print` has written, and the variables of a line that are about what it will write -/
structure Written where
  oOut : CString
  sOutput : CString
  bFoundATag : Bool
  bTmplLoopHasData : Bool
deriving DecidableEq

namespace Written

def startLine (w : Written) : Written := { w with sOutput := [], bFoundATag := false, bTmplLoopHasData := false }

def endLine (w : Written) : Written :=
  { w with
    oOut :=
      if !w.bFoundATag || w.bTmplLoopHasData || w.sOutput.any (· ∉ Config.blanks) then w.oOut ++ w.sOutput else w.oOut }

def foundATag (w : Written) : Written := { w with bFoundATag := true }

/-- `sOutput += s` -/
def put (w : Written) (s : CString) : Written := { w with sOutput := w.sOutput ++ s }

/-- `sOutput.Trim_n().empty()` -/
def blank (w : Written) : Bool := Config.trim w.sOutput = []

/-- at the end of a loop that had data or not -/
def endLoop (w : Written) (bHasData : Bool) : Written :=
  { w with sOutput := if w.blank then [] else w.sOutput, bTmplLoopHasData := bHasData }

end Written

/-- the variables of `Print` -/
structure State (Tmpl : Type) where
  bValidLastIf : Bool
  uSkip : ℕ
  bLoopCont : Bool
  bLoopBreak : Bool
  vLoopContexts : List (LoopContext Tmpl)
  written : Written
deriving DecidableEq

/-- at the start of a file -/
def State.init (vLoopContexts : List (LoopContext Tmpl)) : State Tmpl :=
  ⟨false, 0, false, false, vLoopContexts, [], [], false, false⟩

/-- how a tag leaves the loop over the tags of its line -/
inductive Control where
  | continue
  /-- the rest of the line is not looked at -/
  | break
  /-- `bBroke`: back to the top of a loop -/
  | seek (uFilePos : ℕ)
deriving DecidableEq

/-- an `ELSE` or an `ELSE IF` whose branch is valid -/
def validElse (validIf : CString → Bool) (sArgs : CString) : Bool :=
  let sArg := sArgs.token 0 false 0x20 false
  sArg = [] || (sArg.equals (lit "IF") && validIf (sArgs.token 1 true 0x20 false))

namespace State

def cursors (st : State Tmpl) : List (Cursor Tmpl) := st.vLoopContexts.map LoopContext.cursor

/-- `if (!uSkip) sOutput += s` -/
def text (st : State Tmpl) (s : CString) : State Tmpl :=
  if st.uSkip = 0 then { st with written := st.written.put s } else st

/-- a new row of the innermost loop, or its end -/
def endLoop (st : State Tmpl) : State Tmpl × Control :=
  match st.vLoopContexts with
  | [] => (st, .continue)
  | pContext :: vLoopContexts =>
    let pContext := { pContext with cursor := pContext.cursor.incRowIndex }
    if !st.bLoopBreak && pContext.cursor.curRow.isSome then
      ({ st with
        vLoopContexts := { pContext with bHasData := pContext.bHasData || !st.written.blank } :: vLoopContexts },
        .seek pContext.uFilePosition)
    else
      ({ st with written := st.written.endLoop pContext.bHasData, vLoopContexts, bLoopBreak := false }, .continue)

/-- a line end right behind a tag -/
def lineEnd (sLine : CString) : CString := sLine.takeWhile fun c => c = ch '\r' || c = ch '\n'

/-- a new loop; `uAfterLoopTag` is behind the line end -/
def loop (tmpl : CTemplate Tmpl) (st : State Tmpl) (sArgs : CString) (uCurPos : ℕ) (sLine : CString) : State Tmpl :=
  if st.vLoopContexts.head?.map LoopContext.uFilePosition = some uCurPos then st
  else match tmpl.newLoop st.cursors sArgs with
    | some cursor =>
      { st with vLoopContexts := ⟨uCurPos + (lineEnd sLine).length, cursor, false⟩ :: st.vLoopContexts }
    | none => { st with uSkip := st.uSkip + 1 }

/-- one tag that ends at `uCurPos` -/
def tag (tmpl : CTemplate Tmpl) (st : State Tmpl) (sMid : CString) (uCurPos : ℕ) (sLine : CString) :
    State Tmpl × Control :=
  if (st.bLoopCont || st.bLoopBreak) && sAction sMid ≠ .ENDLOOP then (st, .continue)
  else match sAction sMid with
    | .VAR => (st.text (tmpl.getValue st.cursors (sArgs sMid)), .continue)
    | .CONTINUE =>
      if st.uSkip = 0 && !st.vLoopContexts.isEmpty then
        ({ st with uSkip := st.uSkip + 1, bLoopCont := true }, .break)
      else (st, .continue)
    | .BREAK =>
      if st.uSkip = 0 && !st.vLoopContexts.isEmpty then
        ({ st with uSkip := st.uSkip + 1, bLoopBreak := true }, .break)
      else (st, .continue)
    | .LOOP =>
      if st.uSkip = 0 then (st.loop tmpl (sArgs sMid) uCurPos sLine, .continue)
      else ({ st with uSkip := st.uSkip + 1 }, .continue)
    | .IF =>
      if st.uSkip = 0 && tmpl.validIf st.cursors (sArgs sMid) then ({ st with bValidLastIf := true }, .continue)
      else if st.uSkip = 0 then ({ st with uSkip := st.uSkip + 1, bValidLastIf := false }, .continue)
      else ({ st with uSkip := st.uSkip + 1 }, .continue)
    | .REM => ({ st with uSkip := st.uSkip + 1 }, .continue)
    | .ENDIF | .ENDREM => ({ st with uSkip := st.uSkip - 1 }, .continue)
    | .ENDLOOP =>
      let st := if st.bLoopCont && st.uSkip = 1 then { st with uSkip := 0, bLoopCont := false } else st
      let st := if st.bLoopBreak && st.uSkip = 1 then { st with uSkip := 0 } else st
      if st.uSkip = 0 then st.endLoop else ({ st with uSkip := st.uSkip - 1 }, .continue)
    | .ELSE =>
      if !st.bValidLastIf && st.uSkip = 1 then
        if validElse (tmpl.validIf st.cursors) (sArgs sMid) then
          ({ st with uSkip := 0, bValidLastIf := true }, .continue)
        else (st, .continue)
      else if st.uSkip = 0 then ({ st with uSkip := 1 }, .continue)
      else (st, .continue)
    | .other => (st, .continue)

def foundATag (st : State Tmpl) : State Tmpl := { st with written := st.written.foundATag }

/-- the tags of a line: whether all of them were in order, where the file is sought, and what is left to write -/
def scan (tmpl : CTemplate Tmpl) (st : State Tmpl) : List Piece → Bool × Option ℕ × State Tmpl
  | [] => (true, none, st)
  | .text s :: ps => scan tmpl (st.text s) ps
  | .malformed :: ps => scan tmpl st.foundATag ps
  | .unended :: _ => (false, none, st.foundATag)
  | .tag sMid uCurPos sLine :: ps =>
    match st.foundATag.tag tmpl sMid uCurPos sLine with
    | (st, .continue) => scan tmpl st ps
    | (st, .break) => (true, none, st)
    | (st, .seek uFilePos) => (true, some uFilePos, st)

def startLine (st : State Tmpl) : State Tmpl := { st with written := st.written.startLine }

def endLine (st : State Tmpl) : State Tmpl := { st with written := st.written.endLine }

end State

/-- `ReadLine(sLine)` of a file that is read from `uFilePos` on -/
def readLine (sText : CString) (uFilePos : ℕ) : Option CString := (Lines.lines (ch '\n') (sText.drop uFilePos)).head?

/-- the loop over the lines: what `Print` returns, and what it has written -/
def printLoop (tmpl : CTemplate Tmpl) (sText : CString) : ℕ → ℕ → State Tmpl → Option (Bool × State Tmpl)
  | 0, _, _ => none
  | fuel + 1, uFilePos, st =>
    match readLine sText uFilePos with
    | none => some (true, st)
    | some sLine =>
      match st.startLine.scan tmpl (pieces uFilePos sLine) with
      | (false, _, st) => some (false, st)
      | (true, none, st) => printLoop tmpl sText fuel (uFilePos + sLine.length) st.endLine
      | (true, some uFilePos, st) => printLoop tmpl sText fuel uFilePos st.endLine

/-- `Print` of a file, called with these contexts of loops, returns with this output and these contexts -/
def CTemplate.Prints (tmpl : CTemplate Tmpl) (sText : CString) (vLoopContexts : List (LoopContext Tmpl)) (bRet : Bool)
    (oOut : CString) (vLoopContexts' : List (LoopContext Tmpl)) : Prop :=
  ∃ fuel st, printLoop tmpl sText fuel 0 (.init vLoopContexts) = some (bRet, st) ∧
    st.written.oOut = oOut ∧ st.vLoopContexts = vLoopContexts'

end ZNC.Template
