/-
Conditions of templates: `CTemplate::ValidIf` and `ValidExpr` of `src/Template.cpp`.

`ValidIf` takes the expression apart from the left. It looks at the operator behind the first atom only: a false atom before `&&`
makes the whole false, a true one before `||` makes it true, and what is left is again an expression. So the operators bind alike and
to the right, where `&&` should bind tighter.

One blank on each side of an operator is taken out before. `ValidExpr` looks for `!` at the start of its text, so the blanks that are
left can hide it.

Model: what a template knows of values and loops is a parameter. The scanners of `ScanEnds` end with the operators as separators.

Results:
- `cutBlanks_text`: what `Replace` makes of an expression;
- `validIfLoop_eq`: the loop reads the operators to the right;
- `validIf_iff`: the expressions that get their value, and `validIf_single_iff` for one blank at most on each side.
-/
import ZNC.Lib.Operators
import ZNC.Lib.Segments
import ZNC.ScanEnds
import ZNC.UserConfig

namespace ZNC.ValidIf

open CString Segments ScanEnds Operators List

/-! ## Model -/

/-- what `GetValue(sArgs, bFromIf)` and `HasLoop(sName)` find -/
structure Lookup where
  getValue : CString → Bool → CString
  hasLoop : CString → Bool

/-- `Token(uPos, bRest, sOp)` -/
def opToken (s : CString) (uPos : ℕ) (bRest : Bool) (sOp : CString) : CString :=
  ((tokenRun s uPos bRest sOp false).toOption).getD []

/-- `Token(uPos, bRest, sOp, false, "\"", "\"", true)` -/
def quotedToken (s : CString) (uPos : ℕ) (bRest : Bool) (sOp : CString) : CString :=
  ((tokenQuotedRun s uPos bRest sOp false (lit "\"") (lit "\"") true).toOption).getD []

/-- `Replace(sReplace, sWith, "\"", "\"", false)` -/
def opReplace (s sReplace sWith : CString) : CString :=
  ((replaceRun s ⟨sReplace, sWith, lit "\"", lit "\"", false⟩).toOption).getD []

def toLong (s : CString) : ℤ := max (-2 ^ 63) (min (2 ^ 63 - 1) (s.cStr.strtol 10).1)

variable (t : Lookup)

def isTrue (sName : CString) : Bool := t.hasLoop sName || CString.toBool (t.getValue sName true)

def resolveLiteral (sString : CString) : CString :=
  if sString.startsWith (lit "**") then sString.drop 1
  else if sString.startsWith (lit "*") then t.getValue (sString.drop 1) false
  else sString

/-- the end of `ValidExpr` -/
def compare (bNegate : Bool) (sName sValue : CString) : Bool :=
  if sValue = [] then bNegate != isTrue t sName
  else bNegate != (t.getValue sName true).equals (resolveLiteral t sValue)

def validExpr (sExpression : CString) : Bool :=
  let bNegate := sExpression.startsWith (lit "!")
  let sExpr := sExpression.trimPrefix_n (lit "!")
  let sName (sOp : CString) := Config.trim (opToken sExpr 0 false sOp)
  let sValue (sOp : CString) := Config.trim (quotedToken sExpr 1 true sOp)
  let long (sOp : CString) := toLong (t.getValue (sName sOp) true)
  if sExpr.contains (lit "!=") then compare t (!bNegate) (sName (lit "!=")) (sValue (lit "!="))
  else if sExpr.contains (lit "==") then compare t bNegate (sName (lit "==")) (sValue (lit "=="))
  else if sExpr.contains (lit ">=") then decide (long (lit ">=") ≥ toLong (sValue (lit ">=")))
  else if sExpr.contains (lit "<=") then decide (long (lit "<=") ≤ toLong (sValue (lit "<=")))
  else if sExpr.contains (lit ">") then decide (long (lit ">") > toLong (sValue (lit ">")))
  else if sExpr.contains (lit "<") then decide (long (lit "<") < toLong (sValue (lit "<")))
  else compare t bNegate (Config.trim sExpr) []

/-- `uAndPos < uOrPos`, where `npos` is the largest -/
def isBefore : Option ℕ → Option ℕ → Bool
  | some uAndPos, some uOrPos => uAndPos < uOrPos
  | some _, none => true
  | none, _ => false

theorem opToken_eq {sOp : CString} (hne : sOp ≠ []) (h0 : (0 : UInt8) ∉ sOp) (s : CString) (uPos : ℕ) (bRest : Bool) :
    tokenRun s uPos bRest sOp false = .ok (opToken s uPos bRest sOp) := by
  obtain ⟨r, hr⟩ := ok_of_ends (fun h => hne (tokenRun_endless_iff.1 h).1) (tokenRun_inside h0 s uPos bRest false)
  rw [opToken, hr]
  rfl

/-- the operator that the loop looks at -/
def firstOp (sArgStr : CString) : Op :=
  if isBefore (find (lit "&&") sArgStr) (find (lit "||") sArgStr) then .and else .or

def opText : Op → CString
  | .and => lit "&&"
  | .or => lit "||"

theorem length_opToken {sArgStr : CString} (hne : sArgStr ≠ []) (op : Op) :
    (opToken sArgStr 1 true (opText op)).length < sArgStr.length := by
  have hop : opText op ≠ [] ∧ (0 : UInt8) ∉ opText op := by cases op <;> decide
  obtain hlt | hnil := length_tokenRun hop.1 (opToken_eq hop.1 hop.2 sArgStr 1 true)
  · exact hlt
  · rw [hnil]
    exact length_pos_iff.2 hne

/-- the loop of `ValidIf`; in an empty text there is no operator -/
def validIfLoop (sArgStr : CString) : Bool :=
  if sArgStr = [] then false
  else
    let op := firstOp sArgStr
    let sExpr := opToken sArgStr 0 false (opText op)
    if validExpr t sExpr then if op = .or then true else validIfLoop (opToken sArgStr 1 true (opText op))
    else if op = .and then false
    else validIfLoop (opToken sArgStr 1 true (opText op))
termination_by sArgStr.length
decreasing_by
  · exact length_opToken (by assumption) _
  · exact length_opToken (by assumption) _

/-- the four calls of `Replace` -/
def cutBlanks (sArgs : CString) : CString :=
  opReplace (opReplace (opReplace (opReplace sArgs (lit " &&") (lit "&&")) (lit "&& ") (lit "&&")) (lit " ||") (lit "||"))
    (lit "|| ") (lit "||")

def validIf (sArgs : CString) : Bool := validIfLoop t (cutBlanks sArgs)

/-! ## Expressions -/

/-- free of `&`, `|`, quotes and surrounding blanks, and a C string -/
structure Atom where
  text : CString
  ne : text ≠ []
  plain : ∀ c ∈ text, c ≠ ch '&' ∧ c ≠ ch '|' ∧ c ≠ 0x22 ∧ c ≠ 0
  first : text.head? ≠ some (ch ' ')
  last : text.getLast? ≠ some (ch ' ')

/-- an operator with the blanks around it, and the atom behind it -/
structure Link where
  before : ℕ
  op : Op
  behind : ℕ
  atom : Atom

structure Expr where
  first : Atom
  links : List Link

def blanks (n : ℕ) : CString := List.replicate n (ch ' ')

/-- the atom with the blanks in front of it -/
def Link.body (l : Link) : CString := blanks l.behind ++ l.atom.text

def Link.text (l : Link) : CString := blanks l.before ++ (opText l.op ++ l.body)

def Expr.text (e : Expr) : CString := e.first.text ++ e.links.flatMap Link.text

/-- one blank less on each side of the operator -/
def Link.cut (l : Link) : Link := { l with before := l.before - 1, behind := l.behind - 1 }

/-- the truth values of the groups -/
def Expr.truths (e : Expr) : List (List Bool) :=
  groups (validExpr t e.first.text) (e.links.map fun l => (l.op, validExpr t l.atom.text))

/-- an operand as it stands between the operators -/
def operand (body : CString) (links : List Link) : CString := body ++ blanks (links.head?.elim 0 Link.before)

def operands : List Link → List (Op × CString)
  | [] => []
  | l :: links => (l.op, operand l.body links) :: operands links

/-- the truth values of the groups, as `ValidIf` cuts the atoms out -/
def Expr.readings (e : Expr) : List (List Bool) :=
  groups (validExpr t (operand e.first.text (e.links.map Link.cut)))
    ((operands (e.links.map Link.cut)).map fun p => (p.1, validExpr t p.2))

/-! ## The loop -/

/-- a text in which no operator begins, and which is not blank at its end -/
structure Body (w : CString) : Prop where
  ne : w ≠ []
  plain : ∀ c ∈ w, c ≠ ch '&' ∧ c ≠ ch '|' ∧ c ≠ 0x22 ∧ c ≠ 0
  last : w.getLast? ≠ some (ch ' ')

theorem Atom.body (a : Atom) : Body a.text := ⟨a.ne, a.plain, a.last⟩

theorem plain_blanks {n : ℕ} : ∀ c ∈ blanks n, c ≠ ch '&' ∧ c ≠ ch '|' ∧ c ≠ 0x22 ∧ c ≠ 0 := by
  intro c hc
  rw [eq_of_mem_replicate hc]
  decide

theorem Link.isBody (l : Link) : Body l.body where
  ne h := l.atom.ne (append_eq_nil_iff.1 h).2
  plain := by
    intro c hc
    rcases mem_append.1 hc with hc | hc
    · exact plain_blanks c hc
    · exact l.atom.plain c hc
  last := by
    rw [Link.body, getLast?_append_of_ne_nil _ l.atom.ne]
    exact l.atom.last

/-- the letter of an operator, twice -/
def opChar : Op → UInt8
  | .and => ch '&'
  | .or => ch '|'

theorem opText_eq (op : Op) : opText op = [opChar op, opChar op] := by cases op <;> rfl

theorem opText_ne (op : Op) : opText op ≠ [] := by
  rw [opText_eq]
  exact cons_ne_nil _ _

theorem nul_opText (op : Op) : (0 : UInt8) ∉ opText op := by cases op <;> decide

theorem opChar_inj {op op' : Op} (h : opChar op = opChar op') : op = op' := by
  cases op <;> cases op' <;> first | rfl | exact absurd h (by decide)

variable {w : CString}

theorem opChar_not_mem (h : ∀ c ∈ w, c ≠ ch '&' ∧ c ≠ ch '|' ∧ c ≠ 0x22 ∧ c ≠ 0) (op : Op) : opChar op ∉ w := by
  intro hmem
  cases op
  · exact (h _ hmem).1 rfl
  · exact (h _ hmem).2.1 rfl

variable {op : Op}

theorem head_of_op {p : CString} (h : opText op <+: p) : p.head? = some (opChar op) := by
  obtain ⟨q, rfl⟩ := h
  rw [opText_eq]
  rfl

theorem le_of_op {u q : CString} (hu : opChar op ∉ u) {j : ℕ} (h : opText op <+: (u ++ q).drop j) : u.length ≤ j := by
  by_contra hlt
  have hhead := head_of_op h
  rw [head?_drop, getElem?_append_left (not_le.1 hlt)] at hhead
  exact hu (mem_of_getElem? hhead)

variable {u : CString}

theorem find_own (hu : opChar op ∉ u) (r : CString) :
    find (opText op) (u ++ (opText op ++ r)) = some u.length := by
  refine find_eq_some_iff.2 ⟨by simp, ?_, fun j hj hat => absurd (le_of_op hu hat) (not_le.2 hj)⟩
  rw [drop_left]
  exact prefix_append _ _

theorem find_other {op op' : Op} (hu : opChar op' ∉ u) (hne : op' ≠ op) {r : CString} {j : ℕ}
    (hj : find (opText op') (u ++ (opText op ++ r)) = some j) : u.length < j := by
  obtain ⟨-, hat, -⟩ := find_eq_some_iff.1 hj
  refine lt_of_le_of_ne (le_of_op hu hat) fun heq => ?_
  have hhead := head_of_op hat
  rw [← heq, drop_left, head_of_op (prefix_append _ _)] at hhead
  exact hne (opChar_inj (Option.some.inj hhead)).symm

theorem firstOp_eq (hu : ∀ op, opChar op ∉ u) (op : Op) (r : CString) : firstOp (u ++ (opText op ++ r)) = op := by
  cases op with
  | and =>
    rw [firstOp, show find (lit "&&") (u ++ (opText .and ++ r)) = some u.length from find_own (hu .and) r]
    cases hor : find (lit "||") (u ++ (opText .and ++ r)) with
    | none => rfl
    | some j =>
      have hlt := find_other (hu .or) (by decide) (show find (opText .or) (u ++ (opText .and ++ r)) = some j from hor)
      exact if_pos (decide_eq_true hlt)
  | or =>
    rw [firstOp, show find (lit "||") (u ++ (opText .or ++ r)) = some u.length from find_own (hu .or) r]
    cases hand : find (lit "&&") (u ++ (opText .or ++ r)) with
    | none => rfl
    | some j =>
      have hlt := find_other (hu .and) (by decide) (show find (opText .and) (u ++ (opText .or ++ r)) = some j from hand)
      exact if_neg fun h => absurd (of_decide_eq_true h) (not_lt.2 hlt.le)

theorem firstOp_none (hw : ∀ op, opChar op ∉ w) : firstOp w = .or := by
  have hnone (op : Op) : find (opText op) w = none := by
    refine find_eq_none_iff.2 fun h => hw op (h.subset ?_)
    rw [opText_eq]
    exact mem_cons_self
  rw [firstOp, show find (lit "&&") w = none from hnone .and]
  rfl

/-! ### The tokens at the first operator -/

theorem pieces_op (hu : opChar op ∉ u) (r : CString) :
    Pieces.pieces (opText op) (u ++ (opText op ++ r)) = u :: Pieces.pieces (opText op) r := by
  induction u with
  | nil => exact Pieces.pieces_sep (opText_ne op) r
  | cons c u ih =>
    have hno : ¬opText op <+: c :: (u ++ (opText op ++ r)) := by
      intro h
      have hc := Option.some.inj (head_of_op h)
      exact hu (hc ▸ mem_cons_self)
    rw [cons_append, Pieces.pieces_cons hno, ih fun h => hu (mem_cons_of_mem c h)]
    rfl

theorem pieces_last (hu : opChar op ∉ u) : Pieces.pieces (opText op) u = [u] := by
  induction u with
  | nil => exact Pieces.pieces_nil _
  | cons c u ih =>
    have hno : ¬opText op <+: c :: u := by
      intro h
      have hc := Option.some.inj (head_of_op h)
      exact hu (hc ▸ mem_cons_self)
    rw [Pieces.pieces_cons hno, ih fun h => hu (mem_cons_of_mem c h)]
    rfl

theorem opToken_text (s : CString) (uPos : ℕ) (bRest : Bool) (op : Op) :
    tokenText s uPos bRest (opText op) false = some (opToken s uPos bRest (opText op)) := by
  rw [← tokenRun_toOption, opToken_eq (opText_ne op) (nul_opText op)]
  rfl

theorem opToken_zero (hne : u ≠ []) (hu : opChar op ∉ u) (r : CString) :
    opToken (u ++ (opText op ++ r)) 0 false (opText op) = u ∧ opToken u 0 false (opText op) = u := by
  have hfirst (s : CString) (ps : VCString) (hps : Pieces.pieces (opText op) s = u :: ps) : opToken s 0 false (opText op) = u := by
    have htext := opToken_text s 0 false op
    rw [tokenText_eq (opText_ne op) (nul_opText op), tokensOf, if_neg Bool.false_ne_true, hps,
      filter_cons_of_pos (by simpa using hne)] at htext
    exact (Option.some.inj htext).symm
  exact ⟨hfirst _ _ (pieces_op hu r), hfirst _ _ (pieces_last hu)⟩

theorem tokenStart_op (hu : opChar op ∉ u) (q : CString) :
    tokenStart (opText op) false 1 (u ++ q) = tokenStart (opText op) false 1 q := by
  induction u with
  | nil => rfl
  | cons c u ih =>
    have hno : ¬opText op <+: c :: (u ++ q) := by
      intro h
      have hc := Option.some.inj (head_of_op h)
      exact hu (hc ▸ mem_cons_self)
    rw [cons_append, tokenStart_letter (nul_opText op) hno, ih fun h => hu (mem_cons_of_mem c h)]

theorem opToken_rest (hne : u ≠ []) (hu : opChar op ∉ u) (q : CString) {p : CString}
    (hp : tokenStart (opText op) false 1 q = some p) : opToken (u ++ q) 1 true (opText op) = p := by
  have hstart : ¬opText op <+: u ++ q := by
    intro h
    have hhead := head_of_op h
    rw [head?_append_of_ne_nil _ hne] at hhead
    exact hu (mem_of_mem_head? hhead)
  have htext := opToken_text (u ++ q) 1 true op
  rw [tokenText, if_neg Bool.false_ne_true, skipWhile_eq (opText_ne op) (strncmp_iff (nul_opText op)),
    Pieces.skipSeps_eq_self hstart, Option.bind_some, tokenStart_op hu, hp] at htext
  exact (Option.some.inj htext).symm

/-! ### The loop reads to the right -/

theorem validIfLoop_nil : validIfLoop t [] = false := by
  rw [validIfLoop]
  exact if_pos rfl

theorem validIfLoop_last (hw : Body w) : validIfLoop t w = validExpr t w := by
  have hu := opChar_not_mem hw.plain
  have hrest : opToken w 1 true (opText .or) = [] := by
    have hnil := opToken_rest hw.ne (hu .or) [] (p := []) (by rw [tokenStart])
    rw [append_nil] at hnil
    exact hnil
  rw [validIfLoop, if_neg hw.ne]
  simp only [firstOp_none hu, (opToken_zero hw.ne (hu .or) []).2, hrest, validIfLoop_nil]
  cases validExpr t w <;> rfl

theorem validIfLoop_op (hne : u ≠ []) (hu : ∀ op, opChar op ∉ u) (op : Op) {r : CString} (hr : ¬opText op <+: r) :
    validIfLoop t (u ++ (opText op ++ r)) =
      match op with
      | .and => validExpr t u && validIfLoop t r
      | .or => validExpr t u || validIfLoop t r := by
  have hrest : opToken (u ++ (opText op ++ r)) 1 true (opText op) = r := by
    refine opToken_rest hne (hu op) _ ?_
    rw [tokenStart_sep (opText_ne op) (nul_opText op), if_neg Bool.false_ne_true, Pieces.skipSeps_eq_self hr, tokenStart]
  rw [validIfLoop, if_neg (by simp [hne])]
  simp only [firstOp_eq hu, (opToken_zero hne (hu op) r).1, hrest]
  cases op <;> cases validExpr t u <;> rfl

theorem operand_nil (w : CString) : operand w [] = w := append_nil w

theorem body_not_op (l : Link) (q : CString) (op : Op) : ¬opText op <+: l.body ++ q := by
  intro h
  have hhead := head_of_op h
  rw [head?_append_of_ne_nil _ l.isBody.ne] at hhead
  exact opChar_not_mem l.isBody.plain op (mem_of_mem_head? hhead)

theorem validIfLoop_eq (hw : Body w) (links : List Link) : validIfLoop t (w ++ links.flatMap Link.text) =
    nested (validExpr t (operand w links)) ((operands links).map fun p => (p.1, validExpr t p.2)) := by
  induction links generalizing w with
  | nil =>
    rw [flatMap_nil, append_nil, operand_nil, validIfLoop_last t hw]
    rfl
  | cons l links ih =>
    have hu : ∀ op, opChar op ∉ w ++ blanks l.before := by
      intro op h
      rcases mem_append.1 h with h | h
      · exact opChar_not_mem hw.plain op h
      · exact opChar_not_mem plain_blanks op h
    have htext : w ++ (l :: links).flatMap Link.text =
        (w ++ blanks l.before) ++ (opText l.op ++ (l.body ++ links.flatMap Link.text)) := by
      rw [flatMap_cons, Link.text]
      simp only [append_assoc]
    rw [htext, validIfLoop_op t (by simp [hw.ne]) hu l.op (body_not_op l _ l.op), ih l.isBody]
    change _ = nested (validExpr t (w ++ blanks l.before)) ((l.op, validExpr t (operand l.body links)) :: _)
    cases l.op <;> rfl

/-! ## The blanks around the operators -/

/-- `Replace` makes `r` of `p`, where no quote stands -/
def Replaces (sReplace sWith p r : CString) : Prop := ∀ sStr uRet,
  (replaceLoop ⟨sReplace, sWith, lit "\"", lit "\"", false⟩ false sStr uRet p).map Prod.fst = .ok (sStr ++ r)

variable {sReplace sWith p r : CString}

theorem Replaces.eq (h : Replaces sReplace sWith p r) : opReplace p sReplace sWith = r := by
  have hrun := h [] 0
  rw [opReplace, replaceRun, hrun]
  rfl

theorem Replaces.nil : Replaces sReplace sWith [] [] := by
  intro sStr uRet
  rw [replaceLoop, append_nil]
  rfl

theorem not_quote {c : UInt8} (hc : c ≠ 0x22) (q : CString) : strncmp (c :: q) (lit "\"") = false := by
  rw [← Bool.not_eq_true, strncmp_iff (by decide)]
  intro h
  exact hc (cons_prefix_cons.1 h).1.symm

theorem Replaces.letter (hnul : (0 : UInt8) ∉ sReplace) {c : UInt8} (hc : c ≠ 0x22 ∧ c ≠ 0) (hno : ¬sReplace <+: c :: p)
    (h : Replaces sReplace sWith p r) : Replaces sReplace sWith (c :: p) (c :: r) := by
  intro sStr uRet
  have hcmp : strncmp (c :: p) sReplace = false := by
    rw [← Bool.not_eq_true, strncmp_iff hnul]
    exact hno
  have hgo := h (sStr ++ [c]) uRet
  rw [append_assoc] at hgo
  rw [replaceLoop, if_neg (by simpa using hc.2)]
  simp only [not_quote hc.1, hcmp, Bool.false_eq_true, and_false, if_false]
  exact hgo

theorem Replaces.hit (hne : sReplace ≠ []) (hnul : (0 : UInt8) ∉ sReplace) (hquote : (0x22 : UInt8) ∉ sReplace)
    (h : Replaces sReplace sWith p r) : Replaces sReplace sWith (sReplace ++ p) (sWith ++ r) := by
  intro sStr uRet
  have hcmp : strncmp (sReplace ++ p) sReplace = true := (strncmp_iff hnul _).2 (prefix_append _ _)
  have hgo := h (sStr ++ sWith) (uRet + 1)
  have hdrop : (sReplace ++ p).drop sReplace.length = p := drop_left
  obtain ⟨c, w, hcw⟩ := exists_cons_of_ne_nil hne
  have hquoted : strncmp (sReplace ++ p) (lit "\"") = false := by
    rw [hcw]
    exact not_quote (fun hc => hquote (by rw [hcw, hc]; exact mem_cons_self)) _
  have hhead : (sReplace ++ p).head?.getD 0 ≠ 0 := by
    rw [hcw]
    exact fun hc => hnul (by rw [hcw, show c = 0 from hc]; exact mem_cons_self)
  rw [append_assoc] at hgo
  rw [replaceLoop, if_neg hhead]
  simp only [hquoted, hcmp, Bool.false_eq_true, and_false, if_false]
  rw [if_pos ⟨rfl, trivial⟩, if_neg hne, if_neg (by simp), hdrop]
  exact hgo

theorem Replaces.word {b : UInt8} {n : CString} (hnul : (0 : UInt8) ∉ b :: n)
    (hw : ∀ c ∈ w, c ≠ 0x22 ∧ c ≠ 0) (hb : b ∉ w) (h : Replaces (b :: n) sWith p r) :
    Replaces (b :: n) sWith (w ++ p) (w ++ r) := by
  induction w with
  | nil => exact h
  | cons c w ih =>
    obtain ⟨hc, hw⟩ := forall_mem_cons.1 hw
    refine (ih hw fun hmem => hb (mem_cons_of_mem c hmem)).letter hnul hc fun hpre => hb ?_
    rw [(cons_prefix_cons.1 hpre).1]
    exact mem_cons_self

theorem Replaces.word_second {b d : UInt8} {n : CString} (hnul : (0 : UInt8) ∉ b :: d :: n)
    (hw : ∀ c ∈ w, c ≠ 0x22 ∧ c ≠ 0) (hd : d ∉ w) (hlast : w.getLast? = some b → p.head? ≠ some d)
    (h : Replaces (b :: d :: n) sWith p r) : Replaces (b :: d :: n) sWith (w ++ p) (w ++ r) := by
  induction w with
  | nil => exact h
  | cons c w ih =>
    obtain ⟨hc, hw⟩ := forall_mem_cons.1 hw
    have hlast' : w.getLast? = some b → p.head? ≠ some d := by
      intro hb
      refine hlast ?_
      rw [getLast?_cons, hb]
      rfl
    refine (ih hw (fun hmem => hd (mem_cons_of_mem c hmem)) hlast').letter hnul hc fun hpre => ?_
    obtain ⟨rfl, q, hq⟩ := cons_prefix_cons.1 hpre
    cases w with
    | nil =>
      refine hlast rfl ?_
      rw [← show (d :: n) ++ q = p from hq]
      rfl
    | cons x w =>
      refine hd ?_
      rw [(List.cons.inj hq).1]
      exact mem_cons_of_mem _ mem_cons_self

/-- one blank less in front of the operator -/
def Link.cutBefore (op : Op) (l : Link) : Link := if l.op = op then { l with before := l.before - 1 } else l

/-- one blank less behind the operator -/
def Link.cutBehind (op : Op) (l : Link) : Link := if l.op = op then { l with behind := l.behind - 1 } else l

theorem plain_op (op : Op) : ∀ c ∈ opText op, c ≠ 0x22 ∧ c ≠ 0 := by
  have hall : (opText op).all (fun c => c ≠ 0x22 ∧ c ≠ 0) = true := by cases op <;> decide
  exact fun c hc => of_decide_eq_true (all_eq_true.1 hall c hc)

theorem plain_of (h : ∀ c ∈ w, c ≠ ch '&' ∧ c ≠ ch '|' ∧ c ≠ 0x22 ∧ c ≠ 0) : ∀ c ∈ w, c ≠ 0x22 ∧ c ≠ 0 :=
  fun c hc => (h c hc).2.2

theorem opChar_ne_blank (op : Op) : opChar op ≠ ch ' ' := by cases op <;> decide

theorem last_opText (op : Op) : (opText op).getLast? ≠ some (ch ' ') := by cases op <;> decide

theorem blanks_succ (n : ℕ) : blanks (n + 1) = blanks n ++ [ch ' '] := replicate_succ'

theorem opChar_not_mem_opText {op other : Op} (hne : other ≠ op) : opChar op ∉ opText other := by
  rw [opText_eq]
  intro h
  have hsame : opChar op = opChar other := by simpa using h
  exact hne (opChar_inj hsame).symm

/-- **The blank in front** of each operator of one kind is taken out. -/
theorem replaces_before (op : Op) (hw : Body w) (links : List Link) :
    Replaces (ch ' ' :: opText op) (opText op) (w ++ links.flatMap Link.text)
      (w ++ (links.map (Link.cutBefore op)).flatMap Link.text) := by
  have hnul : (0 : UInt8) ∉ ch ' ' :: opText op := by cases op <;> decide
  have hsecond {v q r : CString} (hv : ∀ c ∈ v, c ≠ 0x22 ∧ c ≠ 0) (hop : opChar op ∉ v)
      (hlast : v.getLast? = some (ch ' ') → q.head? ≠ some (opChar op)) (h : Replaces (ch ' ' :: opText op) (opText op) q r) :
      Replaces (ch ' ' :: opText op) (opText op) (v ++ q) (v ++ r) := by
    rw [opText_eq] at h hnul ⊢
    exact h.word_second hnul hv hop hlast
  induction links generalizing w with
  | nil =>
    rw [map_nil, flatMap_nil]
    exact hsecond (plain_of hw.plain) (opChar_not_mem hw.plain op) (fun h => absurd h hw.last) .nil
  | cons l links ih =>
    have hrest := ih l.isBody
    rw [flatMap_cons, map_cons, flatMap_cons, Link.text, Link.text, Link.cutBefore]
    simp only [append_assoc]
    split_ifs with hop
    · subst hop
      cases hbefore : l.before with
      | zero =>
        -- the letters of the operator are no blanks
        have hown := hrest.word hnul (plain_op l.op) (by cases l.op <;> decide)
        exact hsecond (plain_of hw.plain) (opChar_not_mem hw.plain l.op) (fun h => absurd h hw.last) hown
      | succ k =>
        have hhit := hrest.hit (cons_ne_nil _ _) hnul (by cases l.op <;> decide)
        have hblanks := hsecond (q := ch ' ' :: opText l.op ++ (l.body ++ links.flatMap Link.text)) (plain_of plain_blanks)
          (opChar_not_mem (plain_blanks (n := k)) l.op) (fun _ h => opChar_ne_blank l.op (Option.some.inj h).symm) hhit
        have hbody := hsecond (plain_of hw.plain) (opChar_not_mem hw.plain l.op) (fun h => absurd h hw.last) hblanks
        rw [blanks_succ, Nat.add_sub_cancel]
        simp only [append_assoc, cons_append, nil_append] at hbody ⊢
        exact hbody
    · have hown := hsecond (plain_op l.op) (opChar_not_mem_opText hop) (fun h => absurd h (last_opText l.op)) hrest
      have hblanks := hsecond (plain_of (plain_blanks (n := l.before))) (opChar_not_mem plain_blanks op) (fun _ h => by
        rw [opText_eq] at h
        have hsame : opChar l.op = opChar op := Option.some.inj h
        exact hop (opChar_inj hsame)) hown
      exact hsecond (plain_of hw.plain) (opChar_not_mem hw.plain op) (fun h => absurd h hw.last) hblanks

theorem replaces_operator {q r : CString} (hblank : q.head? ≠ some (ch ' ')) (hletter : q.head? ≠ some (opChar op))
    (h : Replaces (opText op ++ [ch ' ']) (opText op) q r) :
    Replaces (opText op ++ [ch ' ']) (opText op) (opText op ++ q) (opText op ++ r) := by
  have hnul : (0 : UInt8) ∉ opText op ++ [ch ' '] := by cases op <;> decide
  have hchar : opChar op ≠ 0x22 ∧ opChar op ≠ 0 := by cases op <;> decide
  rw [opText_eq] at h hnul ⊢
  refine .letter hnul hchar (fun hpre => ?_) (.letter hnul hchar (fun hpre => ?_) h)
  · obtain ⟨t, ht⟩ := (cons_prefix_cons.1 (cons_prefix_cons.1 hpre).2).2
    exact hblank (congrArg List.head? ht).symm
  · obtain ⟨t, ht⟩ := (cons_prefix_cons.1 hpre).2
    exact hletter (congrArg List.head? ht).symm

/-- **The blank behind** each operator of one kind is taken out. -/
theorem replaces_behind (op : Op) (hw : ∀ c ∈ w, c ≠ ch '&' ∧ c ≠ ch '|' ∧ c ≠ 0x22 ∧ c ≠ 0) (links : List Link) :
    Replaces (opText op ++ [ch ' ']) (opText op) (w ++ links.flatMap Link.text)
      (w ++ (links.map (Link.cutBehind op)).flatMap Link.text) := by
  have hnul : (0 : UInt8) ∉ opText op ++ [ch ' '] := by cases op <;> decide
  have hword {v q r : CString} (hv : ∀ c ∈ v, c ≠ 0x22 ∧ c ≠ 0) (hop : opChar op ∉ v)
      (h : Replaces (opText op ++ [ch ' ']) (opText op) q r) : Replaces (opText op ++ [ch ' ']) (opText op) (v ++ q) (v ++ r) := by
    rw [opText_eq] at h hnul ⊢
    exact h.word hnul hv hop
  induction links generalizing w with
  | nil =>
    rw [map_nil, flatMap_nil]
    exact hword (plain_of hw) (opChar_not_mem hw op) .nil
  | cons l links ih =>
    have hatom := ih (w := l.atom.text) l.atom.plain
    rw [flatMap_cons, map_cons, flatMap_cons, Link.text, Link.text, Link.cutBehind]
    split_ifs with hop
    · subst hop
      rw [Link.body, Link.body]
      simp only [append_assoc]
      refine hword (plain_of hw) (opChar_not_mem hw l.op) ?_
      refine hword (plain_of plain_blanks) (opChar_not_mem plain_blanks l.op) ?_
      cases hbehind : l.behind with
      | zero =>
        have hfirst : (l.atom.text ++ links.flatMap Link.text).head? = l.atom.text.head? := head?_append_of_ne_nil _ l.atom.ne
        have hblank : (l.atom.text ++ links.flatMap Link.text).head? ≠ some (ch ' ') := by
          rw [hfirst]
          exact l.atom.first
        have hletter : (l.atom.text ++ links.flatMap Link.text).head? ≠ some (opChar l.op) := by
          rw [hfirst]
          exact fun h => opChar_not_mem l.atom.plain l.op (mem_of_mem_head? h)
        exact replaces_operator hblank hletter hatom
      | succ k =>
        have hblanks := hword (plain_of (plain_blanks (n := k))) (opChar_not_mem plain_blanks l.op) hatom
        have hhit := hblanks.hit (by simp) hnul (by cases l.op <;> decide)
        rw [Nat.add_sub_cancel, show blanks (k + 1) = [ch ' '] ++ blanks k from rfl]
        simp only [append_assoc] at hhit ⊢
        exact hhit
    · simp only [append_assoc]
      refine hword (plain_of hw) (opChar_not_mem hw op) ?_
      refine hword (plain_of plain_blanks) (opChar_not_mem plain_blanks op) ?_
      refine hword (plain_op l.op) (opChar_not_mem_opText hop) ?_
      exact ih l.isBody.plain

theorem cut_eq (l : Link) :
    (((l.cutBefore .and).cutBehind .and).cutBefore .or).cutBehind .or = l.cut := by
  obtain ⟨before, op, behind, atom⟩ := l
  cases op <;> rfl

/-- **The four calls of `Replace`** take out one blank on each side of each operator. -/
theorem cutBlanks_text (e : Expr) : cutBlanks e.text = e.first.text ++ (e.links.map Link.cut).flatMap Link.text := by
  have hbefore (op : Op) (links : List Link) := (replaces_before op e.first.body links).eq
  have hbehind (op : Op) (links : List Link) := (replaces_behind op e.first.plain links).eq
  have hand : cutBlanks e.text = opReplace (opReplace (e.first.text ++
      ((e.links.map (Link.cutBefore .and)).map (Link.cutBehind .and)).flatMap Link.text) (ch ' ' :: opText .or) (opText .or))
      (opText .or ++ [ch ' ']) (opText .or) := by
    rw [← hbehind .and, ← hbefore .and]
    rfl
  rw [hand, hbefore .or, hbehind .or, map_map, map_map, map_map]
  congr 2
  exact map_congr_left fun l _ => cut_eq l

/-! ## Which expressions get their value -/

/-- the value of the expression: `&&` binds tighter than `||` -/
def Expr.value (e : Expr) : Bool := decide (Holds (e.truths t))

theorem validIf_eq (e : Expr) : validIf t e.text = true ↔ Reached (e.readings t) := by
  rw [validIf, cutBlanks_text, validIfLoop_eq t e.first.body, nested_iff]
  rfl

/-- before the first true group, only last atoms are false -/
def OnlyLastFalse (gs : List (List Bool)) : Prop :=
  ∀ before g after, gs = before ++ g :: after → (∀ b ∈ g, b = true) → ¬Holds before → ∀ h ∈ before, ∀ b ∈ h.dropLast, b = true

theorem reached_iff (gs : List (List Bool)) : Reached gs ↔ Holds gs ∧ OnlyLastFalse gs := by
  constructor
  · intro h
    exact ⟨h.holds, (reached_iff_holds_iff gs).1 ⟨fun _ => h.holds, fun _ => h⟩⟩
  · rintro ⟨hholds, honly⟩
    exact ((reached_iff_holds_iff gs).2 honly).2 hholds

/-- **The expressions that get their value:** a group of the expression is true exactly if one is true with the atoms as they are cut
out, and then only last atoms are false in the groups before the first such. -/
theorem validIf_iff (e : Expr) : validIf t e.text = e.value t ↔
    (Holds (e.truths t) ↔ Holds (e.readings t) ∧ OnlyLastFalse (e.readings t)) := by
  rw [Bool.eq_iff_iff, validIf_eq, Expr.value, decide_eq_true_eq, reached_iff]
  exact iff_comm

theorem readings_eq {e : Expr} (h : ∀ l ∈ e.links, l.before ≤ 1 ∧ l.behind ≤ 1) : e.readings t = e.truths t := by
  have hoperand : ∀ (links : List Link) (w : CString), (∀ l ∈ links, l.before ≤ 1 ∧ l.behind ≤ 1) →
      operand w (links.map Link.cut) = w ∧
        operands (links.map Link.cut) = links.map fun l => (l.op, l.atom.text) := by
    intro links
    induction links with
    | nil => exact fun w _ => ⟨operand_nil w, rfl⟩
    | cons l links ih =>
      intro w hlinks
      obtain ⟨hl, hlinks⟩ := forall_mem_cons.1 hlinks
      have hbefore : l.before - 1 = 0 := by omega
      have hbehind : l.behind - 1 = 0 := by omega
      refine ⟨?_, ?_⟩
      · change w ++ blanks (l.before - 1) = w
        rw [hbefore]
        exact append_nil w
      · obtain ⟨hw, hrest⟩ := ih l.cut.body hlinks
        rw [map_cons, operands, hw, hrest, Link.body, Link.cut, hbehind]
        rfl
  obtain ⟨hfirst, hrest⟩ := hoperand e.links e.first.text h
  rw [Expr.readings, Expr.truths, hfirst, hrest, map_map]
  rfl

theorem validIf_single_iff {e : Expr} (h : ∀ l ∈ e.links, l.before ≤ 1 ∧ l.behind ≤ 1) :
    validIf t e.text = e.value t ↔ OnlyLastFalse (e.truths t) := by
  rw [validIf_iff, readings_eq t h]
  constructor
  · intro hiff before g after heq hg
    exact (hiff.1 ⟨g, heq ▸ mem_append_right _ mem_cons_self, hg⟩).2 before g after heq hg
  · exact fun honly => ⟨fun hholds => ⟨hholds, honly⟩, And.left⟩

/-- a template in which `c` is set -/
def onlyC : Lookup := ⟨fun sName _ => if sName = lit "c" then lit "1" else [], fun _ => false⟩

def letterAtom (c : UInt8) (h : c ≠ ch '&' ∧ c ≠ ch '|' ∧ c ≠ 0x22 ∧ c ≠ 0 ∧ c ≠ ch ' ') : Atom :=
  ⟨[c], cons_ne_nil _ _, forall_mem_singleton.2 ⟨h.1, h.2.1, h.2.2.1, h.2.2.2.1⟩,
    fun hc => h.2.2.2.2 (Option.some.inj hc), fun hc => h.2.2.2.2 (Option.some.inj hc)⟩

/-- `a && b || c` -/
def groupsOfTwo : Expr :=
  ⟨letterAtom (ch 'a') (by decide), [⟨1, .and, 1, letterAtom (ch 'b') (by decide)⟩, ⟨1, .or, 1, letterAtom (ch 'c') (by decide)⟩]⟩

/-- **A false atom before `&&`** ends it, though the group behind `||` is true. -/
theorem validIf_groups : groupsOfTwo.text = lit "a && b || c" ∧ validIf onlyC groupsOfTwo.text = false ∧
    groupsOfTwo.value onlyC = true := by
  have htruths : groupsOfTwo.truths onlyC = [[false, false], [true]] := by decide +kernel
  have hvalue : groupsOfTwo.value onlyC = true := by
    rw [Expr.value, htruths]
    decide
  refine ⟨by decide +kernel, ?_, hvalue⟩
  have hwrong := (validIf_single_iff onlyC (e := groupsOfTwo) (by decide)).not.2
  rw [htruths, hvalue, Bool.not_eq_true] at hwrong
  refine hwrong fun honly => ?_
  have hfalse := honly [[false, false]] [true] [] rfl (by decide) (by decide) [false, false] mem_cons_self false
    mem_cons_self
  exact absurd hfalse Bool.false_ne_true

end ZNC.ValidIf
