/-
Loops in templates: `LOOP`, `ENDLOOP`, `CONTINUE` and `BREAK` in `CTemplate::Print` of `src/Template.cpp`.

The body of a loop should be shown once for each row, `CONTINUE` should go to the next row of the innermost loop and `BREAK`
behind its end. `Print` puts a context for the loop on a stack, and at `ENDLOOP` it seeks back to the start of the body.
`CONTINUE` and `BREAK` leave the rest of their line unread, and then every tag is passed over until there is an `ENDLOOP`, which
`Print` takes for that of the innermost loop. It is not if the loop ends on the line that was left, or if another loop of the
same body ends on a later line.

`Nodes.exec` is what should be written, as the template is nested; `Nodes.good` says that nothing goes wrong on the way.

Results:
- `Ends.leaving`, `Ends.endLoop`: what `Print` does until `ENDLOOP` and there;
- `Nodes.ends`: `Print` goes through a template as it is nested, from any loops around it on;
- `prints_exec`: what `Print` writes of a whole template, and that it leaves the contexts as they were.
-/
import ZNC.TemplateIf

namespace ZNC.Template

open CString List Written

variable {Tmpl : Type}

/-! ## What should be written -/

/-- whether a row or a loop is being left -/
inductive Mode where
  | shown
  | leavesRow
  | leavesLoop
deriving DecidableEq

/-- how far a template has been written; nothing that is written depends on `bValidLastIf`, which is that of `Print` -/
structure Course where
  written : Written
  mode : Mode
  bValidLastIf : Bool
deriving DecidableEq

namespace Course

def start : Course := ⟨⟨[], [], false, false⟩, .shown, false⟩

def hides (c : Course) (es : List Event) : Course := { c with written := c.written.hides es }

def shows (getValue : CString → CString) (c : Course) (es : List Event) : Course :=
  { c with written := c.written.emits getValue (es.map (·, true)) }

/-- at the end of a row that another one follows -/
def nextRow (c : Course) : Course := { c with written := c.written.endLine.startLine, mode := .shown }

def endLoop (c : Course) (bHasData : Bool) : Course := { c with written := c.written.endLoop bHasData, mode := .shown }

/-- the rows of a loop from `cursor` on, of which `n` follow; `e` is the tag at its end -/
def rows (body : Cursor Tmpl → Course → Course) (e : Event) : ℕ → Cursor Tmpl → Bool → Course → Course
  | 0, cursor, bHasData, c => ((body cursor c).hides [e]).endLoop bHasData
  | n + 1, cursor, bHasData, c =>
    let c := (body cursor c).hides [e]
    if c.mode = .leavesLoop then c.endLoop bHasData
    else rows body e n cursor.incRowIndex (bHasData || !c.written.blank) c.nextRow

end Course

section Exec

variable (tmpl : CTemplate Tmpl)

mutual

/-- a template under the loops `ctx` -/
def Nodes.exec : Nodes → List (Cursor Tmpl) → Course → Course
  | .nil, _, c => c
  | .byte b rest, ctx, c => rest.exec ctx (c.shows (tmpl.getValue ctx) [.byte b])
  | .eol rest, ctx, c => rest.exec ctx (c.shows (tmpl.getValue ctx) [.eol])
  | .var t rest, ctx, c => rest.exec ctx (c.shows (tmpl.getValue ctx) [t.event])
  | .rem t body e rest, ctx, c => rest.exec ctx (c.hides (t.event :: (body.events ++ [e.event])))
  | .chain t body elses e rest, ctx, c =>
    let c := c.hides [t.event]
    let c :=
      if tmpl.validIf ctx (sArgs t.sMid) then (body.exec ctx { c with bValidLastIf := true }).hides elses.events
      else elses.exec ctx { c.hides body.events with bValidLastIf := false }
    if c.mode = .shown then rest.exec ctx (c.hides [e.event]) else c.hides (e.event :: rest.events)
  | .loop t body e rest, ctx, c =>
    let c := c.hides [t.event]
    match tmpl.newLoop ctx (sArgs t.sMid) with
    | none => rest.exec ctx (c.hides (lineEndEvents t.sLineEnd ++ (body.events ++ [e.event])))
    | some cursor =>
      rest.exec ctx
        (Course.rows (fun cursor => body.exec (cursor :: ctx)) e.event (cursor.vRows.length - 1) cursor false
          (c.shows (tmpl.getValue ctx) (lineEndEvents t.sLineEnd)))
  | .continue t rest, ctx, c =>
    if ctx.isEmpty then rest.exec ctx (c.hides [t.event])
    else { c with mode := .leavesRow }.hides (t.event :: rest.events)
  | .break t rest, ctx, c =>
    if ctx.isEmpty then rest.exec ctx (c.hides [t.event])
    else { c with mode := .leavesLoop }.hides (t.event :: rest.events)

/-- the first branch whose condition holds -/
def Branches.exec : Branches → List (Cursor Tmpl) → Course → Course
  | .nil, _, c => c
  | .cons t body rest, ctx, c =>
    let c := c.hides [t.event]
    if validElse (tmpl.validIf ctx) (sArgs t.sMid) then
      (body.exec ctx { c with bValidLastIf := true }).hides rest.events
    else rest.exec ctx (c.hides body.events)

end

/-! ## Where nothing goes wrong -/

/-- passed over while a row or a loop is being left -/
def Event.passed : Event → Bool
  | .byte _ | .eol => true
  | .tag sMid _ _ => sAction sMid ≠ .ENDLOOP
  | .malformed | .unended => false

/-- behind the line that is left, the next `ENDLOOP` is the one behind `es` -/
def findsEnd (es : List Event) : Bool := decide (.eol ∈ es) && (behindLine es).all Event.passed

/-- one branch at most -/
def Branches.short : Branches → Bool
  | .nil | .cons _ _ .nil => true
  | _ => false

/-- nothing goes wrong in the rows of a loop -/
def rowsGood (body : Cursor Tmpl → Course → Course) (bodyGood : Cursor Tmpl → Course → Bool) (e : Event) :
    ℕ → Cursor Tmpl → Course → Bool
  | 0, cursor, c => bodyGood cursor c
  | n + 1, cursor, c =>
    bodyGood cursor c &&
      ((body cursor c).mode = .leavesLoop ||
        rowsGood body bodyGood e n cursor.incRowIndex ((body cursor c).hides [e]).nextRow)

mutual

/-- nothing goes wrong in a template that is followed by `k` up to the end of the loop around it: each `CONTINUE` and `BREAK`
finds the end of its loop, no branch of a conditional is asked again (`Branches.behind`), no loop sorts its rows, and none starts
where `uStart`, the loop around a template that is included, does -/
def Nodes.good : Nodes → Option ℕ → List Event → List (Cursor Tmpl) → Course → Bool
  | .nil, _, _, _, _ => true
  | .byte b rest, uStart, k, ctx, c => rest.good uStart k ctx (c.shows (tmpl.getValue ctx) [.byte b])
  | .eol rest, uStart, k, ctx, c => rest.good uStart k ctx (c.shows (tmpl.getValue ctx) [.eol])
  | .var t rest, uStart, k, ctx, c => rest.good uStart k ctx (c.shows (tmpl.getValue ctx) [t.event])
  | .rem t body e rest, uStart, k, ctx, c => rest.good uStart k ctx (c.hides (t.event :: (body.events ++ [e.event])))
  | .chain t body elses e rest, uStart, k, ctx, c =>
    let c := c.hides [t.event]
    let k' := e.event :: (rest.events ++ k)
    if tmpl.validIf ctx (sArgs t.sMid) then
      let c' := body.exec tmpl ctx { c with bValidLastIf := true }
      body.good uStart (elses.events ++ k') ctx { c with bValidLastIf := true } &&
        (c'.mode ≠ .shown ||
          (c'.bValidLastIf || elses.short) && rest.good uStart k ctx (c'.hides (elses.events ++ [e.event])))
    else
      let c' := elses.exec tmpl ctx { c.hides body.events with bValidLastIf := false }
      elses.good uStart k' ctx { c.hides body.events with bValidLastIf := false } &&
        (c'.mode ≠ .shown || rest.good uStart k ctx (c'.hides [e.event]))
  | .loop t body e rest, uStart, k, ctx, c =>
    let c := c.hides [t.event]
    !bSort (sArgs t.sMid) && uStart ≠ some t.uCurPos &&
      match tmpl.newLoop ctx (sArgs t.sMid) with
      | none => rest.good uStart k ctx (c.hides (lineEndEvents t.sLineEnd ++ (body.events ++ [e.event])))
      | some cursor =>
        let c := c.shows (tmpl.getValue ctx) (lineEndEvents t.sLineEnd)
        let bodyExec := fun cursor => body.exec tmpl (cursor :: ctx)
        rowsGood bodyExec (fun cursor => body.good none [] (cursor :: ctx)) e.event
          (cursor.vRows.length - 1) cursor c &&
          rest.good uStart k ctx (Course.rows bodyExec e.event (cursor.vRows.length - 1) cursor false c)
  | .continue t rest, uStart, k, ctx, c | .break t rest, uStart, k, ctx, c =>
    if ctx.isEmpty then rest.good uStart k ctx (c.hides [t.event]) else findsEnd (rest.events ++ k)

def Branches.good : Branches → Option ℕ → List Event → List (Cursor Tmpl) → Course → Bool
  | .nil, _, _, _, _ => true
  | .cons t body rest, uStart, k, ctx, c =>
    let c := c.hides [t.event]
    if validElse (tmpl.validIf ctx) (sArgs t.sMid) then
      let c' := body.exec tmpl ctx { c with bValidLastIf := true }
      body.good uStart (rest.events ++ k) ctx { c with bValidLastIf := true } &&
        (c'.mode ≠ .shown || c'.bValidLastIf || rest.short)
    else rest.good uStart k ctx (c.hides body.events)

end

end Exec

/-! ## What `Print` does -/

section Print

variable {tmpl : CTemplate Tmpl} {sText : CString} {vStart C : List (LoopContext Tmpl)} {es : List Event} {r : Result Tmpl}

/-- `Print` under the loops of these contexts -/
def Course.state (c : Course) (C : List (LoopContext Tmpl)) : State Tmpl :=
  match c.mode with
  | .shown => .reading c.bValidLastIf 0 C c.written
  | .leavesRow => ⟨c.bValidLastIf, 1, true, false, C, c.written⟩
  | .leavesLoop => ⟨c.bValidLastIf, 1, false, true, C, c.written⟩

variable {c : Course} {w : Written} {v : Bool}

theorem Course.state_shown (hc : c.mode = .shown) (C : List (LoopContext Tmpl)) :
    c.state C = .reading c.bValidLastIf 0 C c.written := by
  rw [Course.state, hc]

@[simp] theorem Course.hides_hides (c : Course) (es es' : List Event) :
    (c.hides es).hides es' = c.hides (es ++ es') := by
  rw [Course.hides, Course.hides, Course.hides, hides_append]

theorem Nodes.exec_chain {t : Tag .IF} {body rest : Nodes} {elses : Branches} {e : Tag .ENDIF}
    {ctx : List (Cursor Tmpl)} :
    (Nodes.chain t body elses e rest).exec tmpl ctx ⟨w, .shown, v⟩ =
      let c :=
        if tmpl.validIf ctx (sArgs t.sMid) then (body.exec tmpl ctx ⟨w.foundATag, .shown, true⟩).hides elses.events
        else elses.exec tmpl ctx ⟨w.foundATag.hides body.events, .shown, false⟩
      if c.mode = .shown then rest.exec tmpl ctx (c.hides [e.event]) else c.hides (e.event :: rest.events) := by
  rw [Nodes.exec]
  rfl

theorem Nodes.good_chain {t : Tag .IF} {body rest : Nodes} {elses : Branches} {e : Tag .ENDIF} {uStart : Option ℕ}
    {k : List Event} {ctx : List (Cursor Tmpl)} :
    (Nodes.chain t body elses e rest).good tmpl uStart k ctx ⟨w, .shown, v⟩ =
      let k' := e.event :: (rest.events ++ k)
      if tmpl.validIf ctx (sArgs t.sMid) then
        let c := body.exec tmpl ctx ⟨w.foundATag, .shown, true⟩
        body.good tmpl uStart (elses.events ++ k') ctx ⟨w.foundATag, .shown, true⟩ &&
          (c.mode ≠ .shown ||
            (c.bValidLastIf || elses.short) && rest.good tmpl uStart k ctx (c.hides (elses.events ++ [e.event])))
      else
        let c := elses.exec tmpl ctx ⟨w.foundATag.hides body.events, .shown, false⟩
        elses.good tmpl uStart k' ctx ⟨w.foundATag.hides body.events, .shown, false⟩ &&
          (c.mode ≠ .shown || rest.good tmpl uStart k ctx (c.hides [e.event])) := by
  rw [Nodes.good]
  rfl

theorem good_behind {b : Bool} (h : (decide (c.mode ≠ .shown) || b) = true) (hc : c.mode = .shown) : b = true := by
  simpa [hc] using h

theorem Ends.leaving (hc : c.mode ≠ .shown) {es' : List Event} (hpassed : es'.all Event.passed)
    (h : Ends tmpl sText vStart ((c.hides es').state C) es r) :
    Ends tmpl sText vStart (c.state C) (es' ++ es) r := by
  induction es' generalizing c with
  | nil => exact h
  | cons e es' ih =>
    obtain ⟨he, hpassed⟩ := Bool.and_eq_true_iff.1 hpassed
    have hnext := ih (c := c.hides [e]) hc hpassed h
    obtain ⟨w, m, v⟩ := c
    cases e with
    | byte b =>
      refine Ends.byte ?_
      cases m with
      | shown => exact absurd rfl hc
      | leavesRow => exact hnext
      | leavesLoop => exact hnext
    | eol =>
      refine Ends.eol ?_
      cases m with
      | shown => exact absurd rfl hc
      | leavesRow => exact hnext
      | leavesLoop => exact hnext
    | tag sMid u sLineEnd =>
      have hact : sAction sMid ≠ .ENDLOOP := by simpa [Event.passed] using he
      cases m with
      | shown => exact absurd rfl hc
      | leavesRow =>
        refine hnext.tag (fun sLine => ?_) fun _ hq => hq
        simp [Course.state, Course.hides, State.tag, State.foundATag, hact, hides, hide]
      | leavesLoop =>
        refine hnext.tag (fun sLine => ?_) fun _ hq => hq
        simp [Course.state, Course.hides, State.tag, State.foundATag, hact, hides, hide]
    | malformed => cases he
    | unended => cases he

theorem hides_behindLine (hw : w.bFoundATag = true) {es : List Event} (hes : .eol ∈ es) :
    w.hides es = w.endLine.startLine.hides (behindLine es) := by
  have hfound : w.foundATag = w := by rw [foundATag, ← hw]
  induction es with
  | nil => cases hes
  | cons e es ih =>
    have hrest (he : e ≠ .eol) (hhide : w.hide e = w) :
        w.hides (e :: es) = w.endLine.startLine.hides (behindLine (e :: es)) := by
      rw [hides_cons, hhide, ih ((mem_cons.1 hes).resolve_left he.symm), behindLine, behindLine,
        dropWhile_cons_of_pos (by simpa using he)]
    cases e with
    | eol => rfl
    | byte b => exact hrest (by simp) rfl
    | tag sMid u sLineEnd => exact hrest (by simp) hfound
    | malformed => exact hrest (by simp) rfl
    | unended => exact hrest (by simp) rfl

theorem Ends.leave {a : Action} {t : Tag a} {m : Mode}
    (ha : a = .CONTINUE ∧ m = .leavesRow ∨ a = .BREAK ∧ m = .leavesLoop) (hC : C ≠ []) {es' : List Event}
    (hfind : findsEnd es') (h : Ends tmpl sText vStart ((Course.hides ⟨w, m, v⟩ (t.event :: es')).state C) es r) :
    Ends tmpl sText vStart (.reading v 0 C w) (t.event :: (es' ++ es)) r := by
  obtain ⟨heol, hpassed⟩ := Bool.and_eq_true_iff.1 hfind
  replace heol : .eol ∈ es' := of_decide_eq_true heol
  have hbehind : behindLine (es' ++ es) = behindLine es' ++ es := by
    have hne : es'.dropWhile (· ≠ .eol) ≠ [] := by
      intro hnil
      simpa using dropWhile_eq_nil_iff.1 hnil _ heol
    rw [behindLine, behindLine, dropWhile_append, if_neg (by simpa using hne), tail_append_of_ne_nil hne]
  have hline : Ends tmpl sText vStart ((Course.mk w.foundATag.endLine.startLine m v).state C)
    (behindLine (es' ++ es)) r := by
    rw [hbehind]
    refine Ends.leaving (by rcases ha with ⟨-, rfl⟩ | ⟨-, rfl⟩ <;> simp) hpassed ?_
    rw [Course.hides, ← hides_behindLine rfl heol]
    exact h
  rcases ha with ⟨rfl, rfl⟩ | ⟨rfl, rfl⟩
  · have hjump : Ends tmpl sText vStart (State.mk v 1 true false C w.foundATag).endLine.startLine _ r := hline
    refine hjump.jump (fun sLine => ?_) rfl
    simp [State.reading, State.tag, State.foundATag, t.action, hC]
  · have hjump : Ends tmpl sText vStart (State.mk v 1 false true C w.foundATag).endLine.startLine _ r := hline
    refine hjump.jump (fun sLine => ?_) rfl
    simp [State.reading, State.tag, State.foundATag, t.action, hC]

theorem curRow_isSome (cursor : Cursor Tmpl) :
    cursor.curRow.isSome = decide (cursor.uRowIndex < cursor.vRows.length) := by
  rw [Cursor.curRow]
  split
  next h =>
    split
    · have hlt : cursor.vRows.length - cursor.uRowIndex - 1 < cursor.vRows.length := by omega
      simp [h, hlt]
    · simp [h]
  next h => simp [h]

theorem Ends.next_row (hc : c.mode ≠ .leavesLoop) {context : LoopContext Tmpl} {t : Tag .ENDLOOP}
    (hrow : context.cursor.incRowIndex.curRow.isSome) {es' : List Event}
    (hes : events context.uFilePosition (sText.drop context.uFilePosition) = es') (hC : vStart <:+ C)
    (h : Ends tmpl sText vStart
      ((c.hides [t.event]).nextRow.state
        (⟨context.uFilePosition, context.cursor.incRowIndex,
          context.bHasData || !(c.hides [t.event]).written.blank⟩ :: C)) es' r) :
    Ends tmpl sText vStart (c.state (context :: C)) (t.event :: es) r := by
  have hbehind (q : ℕ) (hq : Behind vStart (context :: C) q) (cursor : Cursor Tmpl) (bHasData : Bool) :
      Behind vStart (⟨context.uFilePosition, cursor, bHasData⟩ :: C) context.uFilePosition := by
    have hpush (next : LoopContext Tmpl) (hnext : context.uFilePosition ≤ next.uFilePosition) :
        Behind vStart (next :: C) next.uFilePosition := (hq.pop hC).1.push hnext
    exact hpush _ le_rfl
  obtain ⟨w, m, v⟩ := c
  have hseek : Ends tmpl sText vStart
      (State.reading v 0 (⟨context.uFilePosition, context.cursor.incRowIndex, context.bHasData ||
        !w.foundATag.blank⟩ :: C)
        w.foundATag).endLine.startLine es' r := h
  cases m with
  | leavesLoop => exact absurd rfl hc
  | shown =>
    refine hseek.seek (fun sLine => ?_) hes fun q hq => hbehind q hq _ _
    simp [Course.state, State.tag, State.foundATag, t.action, State.endLoop, State.reading, hrow]
  | leavesRow =>
    refine hseek.seek (fun sLine => ?_) hes fun q hq => hbehind q hq _ _
    simp [Course.state, State.tag, State.foundATag, t.action, State.endLoop, State.reading, hrow]

theorem Ends.end_loop {context : LoopContext Tmpl} {t : Tag .ENDLOOP}
    (hend : c.mode = .leavesLoop ∨ context.cursor.incRowIndex.curRow.isSome = false) (hC : vStart <:+ C)
    (h : Ends tmpl sText vStart (((c.hides [t.event]).endLoop context.bHasData).state C) es r) :
    Ends tmpl sText vStart (c.state (context :: C)) (t.event :: es) r := by
  have hbehind (q : ℕ) (hq : Behind vStart (context :: C) q) : Behind vStart C q :=
    (hq.pop hC).1.mono (hq.pop hC).2
  obtain ⟨w, m, v⟩ := c
  refine h.tag (fun sLine => ?_) ?_
  · cases m with
    | leavesLoop =>
      simp [Course.state, Course.hides, Course.endLoop, State.tag, State.foundATag, t.action, State.endLoop,
        State.reading, hides]
    | shown =>
      have hrow := hend.resolve_left (by simp)
      simp [Course.state, Course.hides, Course.endLoop, State.tag, State.foundATag, t.action, State.endLoop,
        State.reading, hides, hrow]
    | leavesRow =>
      have hrow := hend.resolve_left (by simp)
      simp [Course.state, Course.hides, Course.endLoop, State.tag, State.foundATag, t.action, State.endLoop,
        State.reading, hides, hrow]
  · intro q hq
    cases m <;> exact hbehind q hq

theorem Ends.hidden_elses (B : Branches) {e : Tag .ENDIF} (hv : (v || B.short) = true)
    (h : Ends tmpl sText vStart (.reading v 0 C (w.hides B.events).foundATag) es r) :
    Ends tmpl sText vStart (.reading v 0 C w) (B.events ++ e.event :: es) r := by
  cases B with
  | nil => exact show_endif h
  | cons t body rest =>
    simp only [Branches.events, hides_cons, hides_append] at h
    simp only [Branches.events, cons_append, append_assoc]
    refine show_else (skip body 0 _ _ ?_)
    cases v with
    | true => exact skipElses rest 0 _ _ (.inl rfl) (skip_closes (by simp) h)
    | false =>
      cases rest with
      | nil => exact skip_closes (by simp) h
      | cons => cases hv

theorem Ends.show_lineEnd (sLineEnd : CString) {getValue : CString → CString}
    (h : Ends tmpl sText vStart (.reading v 0 C (w.emits getValue ((lineEndEvents sLineEnd).map (·, true)))) es r) :
    Ends tmpl sText vStart (.reading v 0 C w) (lineEndEvents sLineEnd ++ es) r := by
  induction sLineEnd generalizing w with
  | nil => exact h
  | cons c s ih =>
    rw [lineEndEvents, flatMap_cons, ← lineEndEvents] at h ⊢
    rw [map_append, emits_append] at h
    split at h
    next hc =>
      simp only [map_cons, map_nil, emits_cons, emits_nil, emit_byte, emit_eol] at h
      rw [if_pos hc]
      exact show_byte (Ends.eol (ih h))
    next hc =>
      rw [if_neg hc]
      exact show_byte (ih h)

/-- what is left of `Print` behind a template that is followed by `k` up to the end of the loop around it -/
def Goes (tmpl : CTemplate Tmpl) (sText : CString) (vStart C : List (LoopContext Tmpl)) (c : Course) (k es : List Event)
    (r : Result Tmpl) : Prop :=
  if c.mode = .shown then Ends tmpl sText vStart (c.state C) (k ++ es) r
  else Ends tmpl sText vStart ((c.hides k).state C) es r

theorem Goes.of_nil (h : Ends tmpl sText vStart (c.state C) es r) :
    Goes tmpl sText vStart C c [] es r := by
  rw [Goes]
  split
  · exact h
  · exact h

theorem Ends.rows {body : Cursor Tmpl → Course → Course} {bodyGood : Cursor Tmpl → Course → Bool} {e : Tag .ENDLOOP}
    {bodyEvents : List Event} {uFilePos : ℕ} (hC : vStart <:+ C)
    (hbody : ∀ context c, c.mode = .shown → bodyGood context.cursor c →
      Goes tmpl sText vStart (context :: C) (body context.cursor c) [] (e.event :: es) r →
      Ends tmpl sText vStart (c.state (context :: C)) (bodyEvents ++ e.event :: es) r)
    (hevents : events uFilePos (sText.drop uFilePos) = bodyEvents ++ e.event :: es) (n : ℕ) (cursor : Cursor Tmpl)
    (bHasData : Bool) (c : Course) (hc : c.mode = .shown) (hn : cursor.uRowIndex + n + 1 = cursor.vRows.length)
    (hgood : rowsGood body bodyGood e.event n cursor c)
    (h : Ends tmpl sText vStart ((Course.rows body e.event n cursor bHasData c).state C) es r) :
    Ends tmpl sText vStart (c.state (⟨uFilePos, cursor, bHasData⟩ :: C)) (bodyEvents ++ e.event :: es) r := by
  induction n generalizing cursor bHasData c with
  | zero =>
    refine hbody _ c hc hgood (Goes.of_nil (Ends.end_loop (.inr ?_) hC h))
    rw [curRow_isSome, decide_eq_false_iff_not, Cursor.incRowIndex]
    dsimp only
    omega
  | succ n ih =>
    obtain ⟨hrow, hrest⟩ := Bool.and_eq_true_iff.1 hgood
    refine hbody _ c hc hrow (Goes.of_nil ?_)
    rw [Course.rows] at h
    split at h
    next hleaves => exact Ends.end_loop (.inl hleaves) hC h
    next hleaves =>
      refine Ends.next_row (c := body cursor c) hleaves ?_ hevents hC
        (ih _ _ _ rfl ?_ (by simpa [show (body cursor c).mode ≠ .leavesLoop from hleaves] using hrest) h)
      · rw [curRow_isSome, decide_eq_true_eq, Cursor.incRowIndex]
        dsimp only
        omega
      · rw [Cursor.incRowIndex]
        dsimp only
        omega

theorem Course.rows_mode (body : Cursor Tmpl → Course → Course) (e : Event) (n : ℕ)
    (cursor : Cursor Tmpl) (bHasData : Bool)
    (c : Course) : (Course.rows body e n cursor bHasData c).mode = .shown := by
  induction n generalizing cursor bHasData c with
  | zero => rfl
  | succ n ih =>
    rw [Course.rows]
    split
    · rfl
    · exact ih _ _ _

theorem newLoop_rows {cursors : List (Cursor Tmpl)} {sArgs : CString} {cursor : Cursor Tmpl}
    (h : tmpl.newLoop cursors sArgs = some cursor) :
    cursor.uRowIndex = 0 ∧ 0 < cursor.vRows.length := by
  obtain ⟨vRows, hloop, rfl⟩ := Option.map_eq_some_iff.1 h
  refine ⟨rfl, length_pos_iff.2 fun hnil => ?_⟩
  dsimp only at hnil
  rw [hnil] at hloop
  exact tmpl.mvLoops_ne _ _ hloop

mutual

theorem Nodes.ends (T : Nodes) (C : List (LoopContext Tmpl)) (uStart : Option ℕ) (k : List Event) (c : Course)
    (hC : vStart <:+ C) (hstart : C = vStart → uStart = C.head?.map LoopContext.uFilePosition) (hc : c.mode = .shown)
    (hgood : T.good tmpl uStart k (cursors C) c) (es : List Event) (r : Result Tmpl)
    (h : Goes tmpl sText vStart C (T.exec tmpl (cursors C) c) k es r) :
    Ends tmpl sText vStart (c.state C) (T.events ++ (k ++ es)) r := by
  obtain ⟨w, m, v⟩ := c
  obtain rfl : m = .shown := hc
  cases T with
  | nil => exact h
  | byte b rest => exact Ends.show_byte (Nodes.ends rest C uStart k _ hC hstart rfl hgood es r h)
  | eol rest =>
    refine Ends.eol ?_
    have hrest := Nodes.ends rest C uStart k _ hC hstart rfl hgood es r h
    have hstate : (Course.shows (tmpl.getValue (cursors C)) ⟨w, .shown, v⟩ [.eol]).state C =
        .reading v 0 C (w.emit (tmpl.getValue (cursors C)) (.eol, true)) := rfl
    rw [hstate, emit_eol] at hrest
    exact hrest
  | var t rest =>
    refine Ends.show_var ?_
    have hrest := Nodes.ends rest C uStart k _ hC hstart rfl hgood es r h
    have hstate : (Course.shows (tmpl.getValue (cursors C)) ⟨w, .shown, v⟩ [t.event]).state C =
        .reading v 0 C (w.emit (tmpl.getValue (cursors C)) (t.event, true)) := rfl
    rw [hstate, emit_var] at hrest
    exact hrest
  | rem t body e rest =>
    simp only [Nodes.events, cons_append, append_assoc]
    refine Ends.show_rem (Ends.skip body 0 _ _ (Ends.skip_closes (by simp) ?_))
    have hrest := Nodes.ends rest C uStart k _ hC hstart rfl hgood es r h
    have hstate : (Course.hides ⟨w, .shown, v⟩ (t.event :: (body.events ++ [e.event]))).state C =
        .reading v 0 C (w.hides (t.event :: (body.events ++ [e.event]))) := rfl
    rw [hstate, hides_cons, hides_append] at hrest
    exact hrest
  | chain t body elses e rest =>
    simp only [Nodes.events, cons_append, append_assoc]
    refine Ends.show_if ?_
    rw [Nodes.exec_chain] at h
    rw [Nodes.good_chain] at hgood
    cases hv : tmpl.validIf (cursors C) (sArgs t.sMid) with
    | true =>
      simp only [hv, if_true] at h hgood
      obtain ⟨hbody, hrest⟩ := Bool.and_eq_true_iff.1 hgood
      have hgo : Goes tmpl sText vStart C (body.exec tmpl (cursors C) ⟨w.foundATag, .shown, true⟩)
          (elses.events ++ e.event :: (rest.events ++ k)) es r := by
        rw [Goes]
        split
        next hm =>
          obtain ⟨hvalid, hrest⟩ := Bool.and_eq_true_iff.1 (good_behind hrest hm)
          rw [if_pos (by exact hm), Course.hides_hides] at h
          have hnext := Nodes.ends rest C uStart k
            ((body.exec tmpl (cursors C) ⟨w.foundATag, .shown, true⟩).hides (elses.events ++ [e.event]))
            hC hstart hm hrest es r h
          rw [Course.state_shown (by exact hm), Course.hides, hides_append] at hnext
          rw [Course.state_shown hm]
          simp only [append_assoc, cons_append]
          exact Ends.hidden_elses elses hvalid hnext
        next hm =>
          rw [if_neg (by exact hm), Goes, if_neg (by exact hm)] at h
          simpa only [Course.hides_hides, append_assoc, cons_append] using h
      have hends := Nodes.ends body C uStart _ ⟨w.foundATag, .shown, true⟩ hC hstart rfl hbody es r hgo
      simp only [append_assoc, cons_append] at hends
      exact hends
    | false =>
      simp only [hv, Bool.false_eq_true, if_false] at h hgood
      obtain ⟨helses, hrest⟩ := Bool.and_eq_true_iff.1 hgood
      have hgo : Goes tmpl sText vStart C
          ((elses.exec tmpl (cursors C) ⟨w.foundATag.hides body.events, .shown, false⟩).hides [e.event])
          (rest.events ++ k) es r := by
        rw [Goes]
        split
        next hm =>
          rw [if_pos (by exact hm)] at h
          rw [append_assoc]
          exact Nodes.ends rest C uStart k _ hC hstart hm (good_behind hrest hm) es r h
        next hm =>
          rw [if_neg (by exact hm), Goes, if_neg (by exact hm)] at h
          simpa only [Course.hides_hides, append_assoc, cons_append, nil_append] using h
      have hends := Branches.ends elses C uStart e _ _ hC hstart helses es r hgo
      rw [append_assoc] at hends
      exact Ends.skip body 0 _ _ hends
  | loop t body e rest =>
    simp only [Nodes.events, cons_append, append_assoc]
    rw [Nodes.exec] at h
    rw [Nodes.good] at hgood
    obtain ⟨htag, hgood⟩ := Bool.and_eq_true_iff.1 hgood
    have hpos : uStart ≠ some t.uCurPos := of_decide_eq_true (Bool.and_eq_true_iff.1 htag).2
    have hhead : C = vStart → C.head?.map LoopContext.uFilePosition ≠ some t.uCurPos := by
      intro heq
      rw [← hstart heq]
      exact hpos
    cases hnew : tmpl.newLoop (cursors C) (sArgs t.sMid) with
    | none =>
      simp only [hnew] at h hgood
      refine Ends.noLoop t.action rfl rfl rfl hnew hhead (Ends.skip_lineEnd _ (Ends.skip body 0 _ _ ?_))
      refine Ends.skip_closes (by simp) ?_
      have hrest := Nodes.ends rest C uStart k _ hC hstart rfl hgood es r h
      rw [Course.state_shown rfl, Course.hides_hides, Course.hides] at hrest
      simp only [singleton_append, hides_cons, hides_append] at hrest
      exact hrest
    | some cursor =>
      simp only [hnew] at h hgood
      obtain ⟨hrows, hrest⟩ := Bool.and_eq_true_iff.1 hgood
      obtain ⟨hindex, hsize⟩ := newLoop_rows hnew
      have hne : body.events ++ e.event :: (rest.events ++ (k ++ es)) ≠ [.eol] := by
        intro heq
        have hmem : e.event ∈ [Event.eol] := by
          rw [← heq]
          exact mem_append_right _ mem_cons_self
        simp [Tag.event] at hmem
      refine Ends.loop t.action rfl rfl rfl hnew hhead hne fun uFilePos hevents => ?_
      refine Ends.show_lineEnd _ (Ends.rows hC ?_ hevents (cursor.vRows.length - 1) cursor false
        (Course.mk _ .shown v) rfl (by omega) hrows ?_)
      · intro context c hc hg hgo
        exact Nodes.ends body (context :: C) none [] c (hC.trans (suffix_cons _ _))
          (fun heq => by
            have hlen := hC.length_le
            rw [← heq, length_cons] at hlen
            omega) hc hg _ r hgo
      · exact Nodes.ends rest C uStart k _ hC hstart (Course.rows_mode _ _ _ _ _ _) hrest es r h
  | «continue» t rest =>
    rw [Nodes.exec] at h
    rw [Nodes.good] at hgood
    cases C with
    | nil =>
      refine (Nodes.ends rest [] uStart k _ hC hstart rfl hgood es r h).tag (fun sLine => ?_) fun _ hq => hq
      simp [Course.state, Course.hides, State.reading, State.tag, State.foundATag, t.action, hides]
    | cons context C =>
      rw [if_neg (by simp [cursors]), Goes, if_neg (by simp [Course.hides])] at h
      rw [if_neg (by simp [cursors])] at hgood
      rw [Nodes.events, cons_append, ← append_assoc]
      refine Ends.leave (.inl ⟨rfl, rfl⟩) (cons_ne_nil _ _) hgood ?_
      rw [Course.hides, Course.hides, ← hides_append] at h
      exact h
  | «break» t rest =>
    rw [Nodes.exec] at h
    rw [Nodes.good] at hgood
    cases C with
    | nil =>
      refine (Nodes.ends rest [] uStart k _ hC hstart rfl hgood es r h).tag (fun sLine => ?_) fun _ hq => hq
      simp [Course.state, Course.hides, State.reading, State.tag, State.foundATag, t.action, hides]
    | cons context C =>
      rw [if_neg (by simp [cursors]), Goes, if_neg (by simp [Course.hides])] at h
      rw [if_neg (by simp [cursors])] at hgood
      rw [Nodes.events, cons_append, ← append_assoc]
      refine Ends.leave (.inr ⟨rfl, rfl⟩) (cons_ne_nil _ _) hgood ?_
      rw [Course.hides, Course.hides, ← hides_append] at h
      exact h

/-- the branches of a conditional, and its end -/
theorem Branches.ends (B : Branches) (C : List (LoopContext Tmpl)) (uStart : Option ℕ) (e : Tag .ENDIF) (k : List Event)
    (w : Written) (hC : vStart <:+ C) (hstart : C = vStart → uStart = C.head?.map LoopContext.uFilePosition)
    (hgood : B.good tmpl uStart (e.event :: k) (cursors C) ⟨w, .shown, false⟩) (es : List Event) (r : Result Tmpl)
    (h : Goes tmpl sText vStart C ((B.exec tmpl (cursors C) ⟨w, .shown, false⟩).hides [e.event]) k es r) :
    Ends tmpl sText vStart (.reading false 1 C w) (B.events ++ e.event :: (k ++ es)) r := by
  cases B with
  | nil => exact Ends.skip_closes (by simp) h
  | cons t body rest =>
    simp only [Branches.events, cons_append, append_assoc]
    refine Ends.wait_else ?_
    rw [Branches.exec] at h
    rw [Branches.good] at hgood
    cases hv : validElse (tmpl.validIf (cursors C)) (sArgs t.sMid) with
    | true =>
      rw [hv, if_pos rfl] at hgood
      rw [hv, if_pos rfl, Course.hides_hides] at h
      obtain ⟨hbody, hrest⟩ := Bool.and_eq_true_iff.1 hgood
      have hgo : Goes tmpl sText vStart C (body.exec tmpl (cursors C) ⟨w.foundATag, .shown, true⟩)
          (rest.events ++ e.event :: k) es r := by
        rw [Goes] at h ⊢
        split
        next hm =>
          rw [if_pos (by exact hm), Course.state_shown (by exact hm), Course.hides, hides_append] at h
          rw [Course.state_shown hm]
          simp only [append_assoc, cons_append]
          exact Ends.hidden_elses rest (good_behind (by rwa [Bool.or_assoc] at hrest) hm) h
        next hm =>
          rw [if_neg (by exact hm), Course.hides_hides, append_assoc] at h
          exact h
      have hends := Nodes.ends body C uStart _ ⟨w.foundATag, .shown, true⟩ hC hstart rfl hbody es r hgo
      simp only [append_assoc, cons_append] at hends
      exact hends
    | false =>
      rw [hv, if_neg (by simp)] at hgood
      rw [hv, if_neg (by simp)] at h
      exact Ends.skip body 0 _ _ (Branches.ends rest C uStart e k _ hC hstart hgood es r h)

end

end Print

end ZNC.Template
