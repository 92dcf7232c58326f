/-
What `CTemplate::Print` reads: the events of a text, and the templates whose tags are nested as they should be.

A line is a row of bytes and tags; `events` are those of a text, with the ends of the lines. `Nodes` are the well-nested
templates: data, variables, comments, conditionals, loops and the tags that leave a row or a loop. A text is such a template if
its events are those of one.

`Ends` says what `Print` returns from a place inside a line on, wherever in the text that is: for a given state and given events
that are still to come. Its rules are one for each event, so a proof goes through a template as it is nested and never looks at
the text again.

Results:
- `Ends.byte`, `Ends.tag`, `Ends.eol`, `Ends.jump`, `Ends.loop`, `Ends.seek`: the rules;
- `prints_of_ends`, `CTemplate.Prints.unique`: from them to `Print`;
- `Ends.skip`: nothing of a template that is skipped is written, whatever is in it.
-/
import ZNC.Template

namespace ZNC.Template

open CString List

variable {Tmpl : Type}

/-! ## Events -/

inductive Event where
  | byte (c : UInt8)
  /-- a tag, the place behind it, and the line end right behind it -/
  | tag (sMid : CString) (uCurPos : ℕ) (sLineEnd : CString)
  | malformed
  | unended
  | eol
deriving DecidableEq

def Piece.events : Piece → List Event
  | .text s => s.map .byte
  | .tag sMid uCurPos sLine => [.tag sMid uCurPos (State.lineEnd sLine)]
  | .malformed => [.malformed]
  | .unended => [.unended]

/-- the events of what is left of a line -/
def lineEvents (uCurPos : ℕ) (sLine : CString) : List Event := (pieces uCurPos sLine).flatMap Piece.events

def linesEvents : ℕ → List CString → List Event
  | _, [] => []
  | uFilePos, sLine :: lines => lineEvents uFilePos sLine ++ .eol :: linesEvents (uFilePos + sLine.length) lines

/-- the events of a text that starts at `uFilePos` -/
def events (uFilePos : ℕ) (sText : CString) : List Event := linesEvents uFilePos (Lines.lines (ch '\n') sText)

def lineEndEvents (sLineEnd : CString) : List Event :=
  sLineEnd.flatMap fun c => if c = ch '\n' then [.byte c, .eol] else [.byte c]

def behindLine (es : List Event) : List Event := (es.dropWhile (· ≠ .eol)).tail

/-! ## Well-nested templates -/

structure Tag (a : Action) where
  sMid : CString
  uCurPos : ℕ
  sLineEnd : CString
  action : sAction sMid = a

def Tag.event {a : Action} (t : Tag a) : Event := .tag t.sMid t.uCurPos t.sLineEnd

mutual

inductive Nodes where
  | nil
  | byte (c : UInt8) (rest : Nodes)
  | eol (rest : Nodes)
  | var (tag : Tag .VAR) (rest : Nodes)
  | rem (tag : Tag .REM) (body : Nodes) (endTag : Tag .ENDREM) (rest : Nodes)
  | chain (tag : Tag .IF) (body : Nodes) (elses : Branches) (endTag : Tag .ENDIF) (rest : Nodes)
  /-- the line end behind the tag is not in the body -/
  | loop (tag : Tag .LOOP) (body : Nodes) (endTag : Tag .ENDLOOP) (rest : Nodes)
  | continue (tag : Tag .CONTINUE) (rest : Nodes)
  | break (tag : Tag .BREAK) (rest : Nodes)

inductive Branches where
  | nil
  | cons (tag : Tag .ELSE) (body : Nodes) (rest : Branches)

end

mutual

def Nodes.events : Nodes → List Event
  | .nil => []
  | .byte c rest => .byte c :: rest.events
  | .eol rest => .eol :: rest.events
  | .var t rest | .continue t rest | .break t rest => t.event :: rest.events
  | .rem t body e rest => t.event :: (body.events ++ e.event :: rest.events)
  | .chain t body elses e rest => t.event :: (body.events ++ (elses.events ++ e.event :: rest.events))
  | .loop t body e rest => t.event :: (lineEndEvents t.sLineEnd ++ (body.events ++ e.event :: rest.events))

def Branches.events : Branches → List Event
  | .nil => []
  | .cons t body rest => t.event :: (body.events ++ rest.events)

end

/-! ## Pieces of a line -/

theorem cutAt_eq_some {a b : UInt8} {s sBefore sBehind : CString} (h : cutAt a b s = some (sBefore, sBehind)) :
    s = sBefore ++ a :: b :: sBehind := by
  induction s generalizing sBefore with
  | nil => cases h
  | cons c s ih =>
    cases s with
    | nil => cases h
    | cons d s =>
      rw [cutAt] at h
      split at h
      next hab =>
        cases h
        rw [hab.1, hab.2, nil_append]
      · obtain ⟨⟨sBefore', sBehind'⟩, hcut, heq⟩ := Option.map_eq_some_iff.1 h
        cases heq
        rw [ih hcut, cons_append]

theorem piecesLoop_eq {sLine : CString} {fuel fuel' : ℕ} (h : sLine.length ≤ fuel) (h' : sLine.length ≤ fuel')
    (uCurPos : ℕ) : piecesLoop fuel uCurPos sLine = piecesLoop fuel' uCurPos sLine := by
  have hnil (fuel u) : piecesLoop fuel u [] = [.text []] := by
    cases fuel <;> rfl
  induction fuel generalizing sLine fuel' uCurPos with
  | zero => rw [eq_nil_of_length_eq_zero (Nat.le_zero.1 h), hnil, hnil]
  | succ fuel ih =>
    cases fuel' with
    | zero => rw [eq_nil_of_length_eq_zero (Nat.le_zero.1 h'), hnil, hnil]
    | succ fuel' =>
      rw [piecesLoop, piecesLoop]
      split
      · rfl
      next sBefore sRest hcut =>
        have hlen := congrArg List.length (cutAt_eq_some hcut)
        simp only [length_append, length_cons] at hlen
        split
        · rfl
        next sInner sBehind hcut' =>
          have hlen' := congrArg List.length (cutAt_eq_some hcut')
          simp only [length_append, length_cons] at hlen'
          have hrest (s : CString) (hs : s.length < sLine.length) (u : ℕ) :
              piecesLoop fuel u s = piecesLoop fuel' u s :=
            ih (by omega) (by omega) u
          simp only [hrest sRest (by omega), hrest sBehind (by omega)]

theorem cutAt_cons {a b c : UInt8} {s sBefore sBehind : CString}
    (h : cutAt a b (c :: s) = some (c :: sBefore, sBehind)) : cutAt a b s = some (sBefore, sBehind) := by
  cases s with
  | nil => cases h
  | cons d s =>
    rw [cutAt] at h
    split at h
    · cases h
    · obtain ⟨⟨sBefore', sBehind'⟩, hcut, heq⟩ := Option.map_eq_some_iff.1 h
      cases heq
      exact hcut

theorem cutAt_cons_none {a b c : UInt8} {s : CString} (h : cutAt a b (c :: s) = none) : cutAt a b s = none := by
  cases s with
  | nil => rfl
  | cons d s =>
    rw [cutAt] at h
    split at h
    · cases h
    · exact Option.map_eq_none_iff.1 h

theorem pieces_eq (uCurPos : ℕ) (sLine : CString) :
    pieces uCurPos sLine =
      match cutAt (ch '<') (ch '?') sLine with
      | none => [.text sLine]
      | some (sBefore, sLine) =>
        .text sBefore :: match cutAt (ch '?') (ch '>') sLine with
          | none => [.unended]
          | some (sInner, sBehind) =>
            let uCurPos := uCurPos + sBefore.length + sInner.length + 4
            let sMid := Config.trim sInner
            if sMid.contains (lit "<?") then .malformed :: pieces uCurPos sLine
            else .tag sMid uCurPos sBehind :: pieces uCurPos sBehind := by
  rw [pieces]
  cases hs : sLine with
  | nil => rfl
  | cons c s =>
    rw [length_cons, piecesLoop]
    cases hcut : cutAt (ch '<') (ch '?') (c :: s) with
    | none => rfl
    | some cut =>
      obtain ⟨sBefore, sRest⟩ := cut
      have hlen := congrArg List.length (cutAt_eq_some hcut)
      simp only [length_append, length_cons] at hlen
      dsimp only
      cases hcut' : cutAt (ch '?') (ch '>') sRest with
      | none => rfl
      | some cut =>
        obtain ⟨sInner, sBehind⟩ := cut
        have hlen' := congrArg List.length (cutAt_eq_some hcut')
        simp only [length_append, length_cons] at hlen'
        have hrest (t : CString) (ht : t.length ≤ s.length) (u : ℕ) :
            piecesLoop s.length u t = piecesLoop t.length u t := piecesLoop_eq ht le_rfl u
        simp only [pieces, hrest sRest (by omega), hrest sBehind (by omega)]

theorem lineEvents_eq_nil {uCurPos : ℕ} {sLine : CString} (h : lineEvents uCurPos sLine = []) : sLine = [] := by
  rw [lineEvents, pieces_eq] at h
  split at h
  · simpa [Piece.events] using h
  · exfalso
    split at h
    · simp [Piece.events] at h
    · dsimp only at h
      split at h <;> simp [Piece.events] at h

theorem lineEvents_cons (uCurPos : ℕ) {c : UInt8} (hc : c ≠ ch '<') (s : CString) :
    lineEvents uCurPos (c :: s) = .byte c :: lineEvents (uCurPos + 1) s := by
  have hcut : cutAt (ch '<') (ch '?') (c :: s) =
      (cutAt (ch '<') (ch '?') s).map fun cut => (c :: cut.1, cut.2) := by
    cases s with
    | nil => rfl
    | cons d s => exact if_neg fun h : c = ch '<' ∧ d = ch '?' => hc h.1
  rw [lineEvents, lineEvents, pieces_eq, pieces_eq, hcut]
  cases cutAt (ch '<') (ch '?') s with
  | none => simp [Piece.events]
  | some cut =>
    have hpos (n : ℕ) : uCurPos + (c :: cut.1).length + n + 4 = uCurPos + 1 + cut.1.length + n + 4 := by
      rw [length_cons]
      omega
    simp only [Option.map_some, hpos, flatMap_cons, Piece.events, map_cons, cons_append]

theorem eol_not_mem_lineEvents (uCurPos : ℕ) (sLine : CString) : Event.eol ∉ lineEvents uCurPos sLine := by
  intro h
  obtain ⟨p, -, hp⟩ := mem_flatMap.1 h
  cases p <;> simp [Piece.events] at hp

theorem lineEvents_eq_byte (tmpl : CTemplate Tmpl) {uCurPos : ℕ} {sLine : CString} {c : UInt8} {es : List Event}
    (h : lineEvents uCurPos sLine = .byte c :: es) :
    ∃ s, sLine = c :: s ∧ lineEvents (uCurPos + 1) s = es ∧
      ∀ st : State Tmpl, st.scan tmpl (pieces uCurPos sLine) = (st.text [c]).scan tmpl (pieces (uCurPos + 1) s) := by
  have htext (st : State Tmpl) (s : CString) : st.text (c :: s) = (st.text [c]).text s := by
    by_cases hskip : st.uSkip = 0 <;> simp [State.text, hskip, Written.put]
  rw [lineEvents, pieces_eq] at h
  split at h
  next hcut =>
    cases sLine with
    | nil => cases h
    | cons d s =>
      simp only [Piece.events, flatMap_cons, flatMap_nil, append_nil, map_cons,
        List.cons.injEq, Event.byte.injEq] at h
      obtain ⟨rfl, rfl⟩ := h
      refine ⟨s, rfl, ?_, fun st => ?_⟩
      · simp [lineEvents, pieces_eq, cutAt_cons_none hcut, Piece.events]
      · rw [pieces_eq, pieces_eq, hcut, cutAt_cons_none hcut]
        simp only [State.scan]
        rw [htext]
  next sBefore sRest hcut =>
    cases sBefore with
    | nil =>
      exfalso
      split at h
      · simp [Piece.events] at h
      · dsimp only at h
        split at h <;> simp [Piece.events] at h
    | cons d sBefore =>
      obtain rfl : d = c := by simpa [Piece.events] using congrArg List.head? h
      have hs := cutAt_eq_some hcut
      rw [cons_append] at hs
      subst hs
      have hpos (n : ℕ) : uCurPos + (d :: sBefore).length + n + 4 = uCurPos + 1 + sBefore.length + n + 4 := by
        rw [length_cons]
        omega
      refine ⟨_, rfl, ?_, fun st => ?_⟩
      · rw [lineEvents, pieces_eq, cutAt_cons hcut]
        simp only [hpos] at h
        exact (List.cons.inj h).2
      · rw [pieces_eq, pieces_eq, hcut, cutAt_cons hcut]
        simp only [hpos, State.scan]
        rw [htext]

theorem lineEvents_eq_tag (tmpl : CTemplate Tmpl) {uCurPos uCurPos' : ℕ}
    {sLine sMid sLineEnd : CString} {es : List Event}
    (h : lineEvents uCurPos sLine = .tag sMid uCurPos' sLineEnd :: es) :
    ∃ w sBehind, sLine = ch '<' :: (w ++ ch '>' :: sBehind) ∧ uCurPos' = uCurPos + (w.length + 2) ∧
      sLineEnd = State.lineEnd sBehind ∧ lineEvents uCurPos' sBehind = es ∧
      ∀ st : State Tmpl, st.scan tmpl (pieces uCurPos sLine) =
        match st.foundATag.tag tmpl sMid uCurPos' sBehind with
        | (st, .continue) => st.scan tmpl (pieces uCurPos' sBehind)
        | (st, .break) => (true, none, st)
        | (st, .seek uFilePos) => (true, some uFilePos, st) := by
  have htext (st : State Tmpl) : st.text [] = st := by
    rw [State.text, Written.put, append_nil, ite_self]
  rw [lineEvents, pieces_eq] at h
  split at h
  · cases sLine <;> simp [Piece.events] at h
  next sBefore sRest hcut =>
    obtain rfl : sBefore = [] := by
      cases sBefore with
      | nil => rfl
      | cons d sBefore => simp [Piece.events] at h
    split at h
    · simp [Piece.events] at h
    next sInner sBehind hcut' =>
      dsimp only at h
      split at h
      · simp [Piece.events] at h
      next hmid =>
        simp only [length_nil, Nat.add_zero, flatMap_cons, Piece.events, map_nil, nil_append,
          singleton_append, List.cons.injEq, Event.tag.injEq] at h
        obtain ⟨⟨rfl, rfl, rfl⟩, rfl⟩ := h
        have hs := cutAt_eq_some hcut
        rw [cutAt_eq_some hcut'] at hs
        refine ⟨ch '?' :: (sInner ++ [ch '?']), sBehind, by simpa using hs, ?_, rfl, rfl, fun st => ?_⟩
        · simp only [length_cons, length_append, length_nil]
          omega
        · have hpieces : pieces uCurPos sLine =
              .text [] :: .tag (Config.trim sInner) (uCurPos + sInner.length + 4) sBehind ::
                pieces (uCurPos + sInner.length + 4) sBehind := by
            rw [pieces_eq, hcut]
            simp only [hcut', length_nil, Nat.add_zero, if_neg hmid]
          exact (congrArg (st.scan tmpl) hpieces).trans (congrArg (State.scan tmpl · (.tag _ _ _ :: _)) (htext st))

theorem events_behind_lineEnd {u : ℕ} {sLine sBehind : CString} {es : List Event}
    (hline : sLine ≠ [] → Lines.lines (ch '\n') (sLine ++ sBehind) = sLine :: Lines.lines (ch '\n') sBehind)
    (hlast : sLine = [] → sBehind = []) (hes : es ≠ [.eol])
    (h : lineEvents u sLine ++ .eol :: events (u + sLine.length) sBehind =
      lineEndEvents (State.lineEnd sLine) ++ es) :
    events (u + (State.lineEnd sLine).length) ((sLine ++ sBehind).drop (State.lineEnd sLine).length) = es := by
  induction sLine generalizing u with
  | nil =>
    rw [hlast rfl] at h
    exact absurd h.symm hes
  | cons c s ih =>
    have hlines := hline (cons_ne_nil _ _)
    by_cases hc : c = ch '\r' ∨ c = ch '\n'
    · have hend : State.lineEnd (c :: s) = c :: State.lineEnd s := by
        rw [State.lineEnd, takeWhile_cons_of_pos (by simpa using hc), State.lineEnd]
      have hlt : c ≠ ch '<' := by
        rintro rfl
        exact absurd hc (by decide)
      rw [hend, lineEvents_cons u hlt, lineEndEvents, flatMap_cons] at h
      by_cases hn : c = ch '\n'
      · obtain rfl : s = [] := by
          rw [cons_append, Lines.lines_cons, if_pos hn] at hlines
          exact (List.cons.inj (List.cons.inj hlines).1).2.symm
        rw [if_pos hn] at h
        have hes : events (u + 1) sBehind = es := (List.cons.inj (List.cons.inj h).2).2
        rw [hend]
        exact hes
      · rw [if_neg hn, singleton_append, cons_append, cons_append] at h
        have hdrop := ih (u := u + 1) (fun hs => Lines.lines_tail hlines hs)
          (fun hs => by
            subst hs
            exact Lines.lines_last (l := []) hlines hn)
          (by
            rw [Nat.add_right_comm, Nat.add_assoc]
            exact (List.cons.inj h).2)
        rw [hend, length_cons, cons_append, drop_succ_cons, ← Nat.add_assoc, Nat.add_right_comm]
        exact hdrop
    · have hend : State.lineEnd (c :: s) = [] := by
        rw [State.lineEnd, takeWhile_cons_of_neg (by simpa using hc)]
      rw [hend] at h ⊢
      rw [length_nil, Nat.add_zero, drop_zero, events, hlines, linesEvents]
      exact h

/-! ## What `Print` returns from a place on -/

section Ends

variable (tmpl : CTemplate Tmpl) (sText : CString) (vStart : List (LoopContext Tmpl))

/-- `Print` from a place inside a line on -/
def restOfLine (fuel uCurPos : ℕ) (sLine : CString) (st : State Tmpl) : Option (Bool × State Tmpl) :=
  match st.scan tmpl (pieces uCurPos sLine) with
  | (false, _, st) => some (false, st)
  | (true, none, st) => printLoop tmpl sText fuel (uCurPos + sLine.length) st.endLine
  | (true, some uFilePos, st) => printLoop tmpl sText fuel uFilePos st.endLine

/-- the loops that were opened since `vStart` start at `uCurPos` at the latest, and no inner one before an outer one -/
def Behind (vLoopContexts : List (LoopContext Tmpl)) (uCurPos : ℕ) : Prop :=
  ∃ v, vLoopContexts = v ++ vStart ∧ (uCurPos :: v.map LoopContext.uFilePosition).Pairwise (· ≥ ·)

/-- a place in the text with what is left of its line and behind it, where these events are still to come -/
structure Here (vLoopContexts : List (LoopContext Tmpl)) (es : List Event) (uCurPos : ℕ) (sLine sBehind : CString) :
    Prop where
  text : sText.drop uCurPos = sLine ++ sBehind
  line : sLine ≠ [] → Lines.lines (ch '\n') (sLine ++ sBehind) = sLine :: Lines.lines (ch '\n') sBehind
  events : lineEvents uCurPos sLine ++ .eol :: events (uCurPos + sLine.length) sBehind = es
  behind : Behind vStart vLoopContexts (uCurPos + (State.lineEnd sLine).length)

/-- what there is to see of `Print` -/
structure Result (Tmpl : Type) where
  bRet : Bool
  oOut : CString
  vLoopContexts : List (LoopContext Tmpl)

def State.result (st : State Tmpl) (bRet : Bool) : Result Tmpl := ⟨bRet, st.written.oOut, st.vLoopContexts⟩

/-- `Print` in this state, with these events still to come, ends with this result -/
def Ends (st : State Tmpl) (es : List Event) (r : Result Tmpl) : Prop :=
  if es = [] then r = st.result true
  else ∀ uCurPos sLine sBehind, Here sText vStart st.vLoopContexts es uCurPos sLine sBehind →
    ∃ fuel bRet st', restOfLine tmpl sText fuel uCurPos sLine st = some (bRet, st') ∧ st'.result bRet = r

variable {tmpl sText vStart} {st st' : State Tmpl} {es : List Event} {r : Result Tmpl}

theorem Behind.mono {vLoopContexts : List (LoopContext Tmpl)} {u u' : ℕ} (h : Behind vStart vLoopContexts u)
    (hu : u ≤ u') : Behind vStart vLoopContexts u' := by
  obtain ⟨v, hv, hpos⟩ := h
  rw [pairwise_cons] at hpos
  exact ⟨v, hv, pairwise_cons.2 ⟨fun p hp => (hpos.1 p hp).trans hu, hpos.2⟩⟩

theorem Here.ne_nil {vLoopContexts : List (LoopContext Tmpl)} {uCurPos : ℕ} {sLine sBehind : CString}
    (h : Here sText vStart vLoopContexts es uCurPos sLine sBehind) : es ≠ [] := by
  rw [← h.events]
  simp

theorem Ends.here (h : Ends tmpl sText vStart st es r) {uCurPos : ℕ} {sLine sBehind : CString}
    (hhere : Here sText vStart st.vLoopContexts es uCurPos sLine sBehind) :
    ∃ fuel bRet st', restOfLine tmpl sText fuel uCurPos sLine st = some (bRet, st') ∧ st'.result bRet = r := by
  rw [Ends, if_neg hhere.ne_nil] at h
  exact h _ _ _ hhere

theorem Ends.printLoop (h : Ends tmpl sText vStart st.startLine es r) {uFilePos : ℕ}
    (hes : events uFilePos (sText.drop uFilePos) = es) (hbehind : Behind vStart st.vLoopContexts uFilePos) :
    ∃ fuel bRet st', printLoop tmpl sText fuel uFilePos st = some (bRet, st') ∧ st'.result bRet = r := by
  cases hlines : Lines.lines (ch '\n') (sText.drop uFilePos) with
  | nil =>
    rw [events, hlines, linesEvents] at hes
    rw [Ends, if_pos hes.symm] at h
    refine ⟨1, true, st, ?_, h.symm⟩
    rw [Template.printLoop, readLine, hlines]
    rfl
  | cons sLine lines =>
    obtain ⟨-, sBehind, htext, hbehindLine⟩ := Lines.lines_eq_cons hlines
    have hhere : Here sText vStart st.startLine.vLoopContexts es uFilePos sLine sBehind :=
      { text := htext
        line := fun _ => by rw [← htext, hlines, hbehindLine]
        events := by rw [← hes, events, events, hlines, hbehindLine, linesEvents]
        behind := hbehind.mono (Nat.le_add_right _ _) }
    obtain ⟨fuel, bRet, st', hrest, hr⟩ := h.here hhere
    refine ⟨fuel + 1, bRet, st', ?_, hr⟩
    rw [Template.printLoop, readLine, hlines]
    exact hrest

theorem Ends.byte {c : UInt8} (h : Ends tmpl sText vStart (st.text [c]) es r) :
    Ends tmpl sText vStart st (.byte c :: es) r := by
  rw [Ends, if_neg (cons_ne_nil _ _)]
  intro uCurPos sLine sBehind hhere
  have hne : lineEvents uCurPos sLine ≠ [] := by
    intro hnil
    have := hhere.events
    rw [hnil] at this
    cases this
  obtain ⟨e, es', hline⟩ := exists_cons_of_ne_nil hne
  have hevents := hhere.events
  rw [hline, cons_append] at hevents
  obtain ⟨rfl, hes⟩ := List.cons.inj hevents
  obtain ⟨s, rfl, hs, hscan⟩ := lineEvents_eq_byte tmpl hline
  have hctx : (st.text [c]).vLoopContexts = st.vLoopContexts := by
    rw [State.text]
    split <;> rfl
  have hlen : uCurPos + 1 + s.length = uCurPos + (c :: s).length := by
    rw [length_cons]
    omega
  have hhere' : Here sText vStart (st.text [c]).vLoopContexts es (uCurPos + 1) s sBehind :=
    { text := by rw [← drop_drop, hhere.text]; rfl
      line := Lines.lines_tail (hhere.line (cons_ne_nil _ _))
      events := by rw [hs, hlen, hes]
      behind := by
        rw [hctx]
        refine hhere.behind.mono ?_
        rw [State.lineEnd, State.lineEnd, takeWhile_cons]
        split
        · rw [length_cons]
          omega
        · rw [length_nil]
          omega }
  obtain ⟨fuel, bRet, st', hrest, hr⟩ := h.here hhere'
  refine ⟨fuel, bRet, st', ?_, hr⟩
  rw [restOfLine, hscan, ← hlen]
  exact hrest

theorem Ends.eol (h : Ends tmpl sText vStart st.endLine.startLine es r) :
    Ends tmpl sText vStart st (.eol :: es) r := by
  rw [Ends, if_neg (cons_ne_nil _ _)]
  intro uCurPos sLine sBehind hhere
  obtain rfl : sLine = [] := by
    refine lineEvents_eq_nil (eq_nil_iff_forall_not_mem.2 fun e (he : e ∈ lineEvents uCurPos sLine) => ?_)
    obtain ⟨e', es', hline⟩ := exists_cons_of_ne_nil (ne_nil_of_mem he)
    have hevents := hhere.events
    rw [hline, cons_append] at hevents
    obtain ⟨rfl, -⟩ := List.cons.inj hevents
    exact eol_not_mem_lineEvents uCurPos sLine (by rw [hline]; exact mem_cons_self)
  have hes : events uCurPos (sText.drop uCurPos) = es := by
    rw [hhere.text]
    exact (List.cons.inj hhere.events).2
  obtain ⟨fuel, bRet, st', hloop, hr⟩ := h.printLoop hes hhere.behind
  refine ⟨fuel, bRet, st', ?_, hr⟩
  have hscan : st.scan tmpl (pieces uCurPos []) = (true, none, st) := by
    rw [pieces_eq]
    simp only [cutAt, State.scan]
    rw [State.text, Written.put, append_nil, ite_self]
  rw [restOfLine, hscan]
  exact hloop

variable (tmpl) in
theorem Here.tag {sMid sLineEnd : CString} {u uCurPos : ℕ} {sLine sBehind : CString}
    (h : Here sText vStart st.vLoopContexts (.tag sMid u sLineEnd :: es) uCurPos sLine sBehind) :
    ∃ sLine', sLineEnd = State.lineEnd sLine' ∧ (sLine' = [] → sBehind = []) ∧ uCurPos < u ∧
      Behind vStart st.vLoopContexts uCurPos ∧
      (∀ vLoopContexts, Behind vStart vLoopContexts (u + sLineEnd.length) →
        Here sText vStart vLoopContexts es u sLine' sBehind) ∧
      ∀ fuel, restOfLine tmpl sText fuel uCurPos sLine st =
        match st.foundATag.tag tmpl sMid u sLine' with
        | (st, .continue) => restOfLine tmpl sText fuel u sLine' st
        | (st, .break) => Template.printLoop tmpl sText fuel (u + sLine'.length) st.endLine
        | (st, .seek uFilePos) => Template.printLoop tmpl sText fuel uFilePos st.endLine := by
  have hne : lineEvents uCurPos sLine ≠ [] := by
    intro hnil
    have := h.events
    rw [hnil] at this
    cases this
  obtain ⟨e, es', hline⟩ := exists_cons_of_ne_nil hne
  have hevents := h.events
  rw [hline, cons_append] at hevents
  obtain ⟨rfl, hes⟩ := List.cons.inj hevents
  obtain ⟨w, sLine', rfl, hu, hend, hrest, hscan⟩ := lineEvents_eq_tag tmpl hline
  have hlen : uCurPos + (ch '<' :: (w ++ ch '>' :: sLine')).length = u + sLine'.length := by
    rw [hu, length_cons, length_append, length_cons]
    omega
  have hline := h.line (cons_ne_nil _ _)
  refine ⟨sLine', hend, fun hl => ?_, by omega, ?_, fun vLoopContexts hbehind => ?_, fun fuel => ?_⟩
  · subst hl
    have hlines : Lines.lines (ch '\n') ((ch '<' :: w) ++ ch '>' :: sBehind) =
        ((ch '<' :: w) ++ [ch '>']) :: Lines.lines (ch '\n') sBehind := by simpa using hline
    exact Lines.lines_last hlines (by decide)
  · have hnil : State.lineEnd (ch '<' :: (w ++ ch '>' :: sLine')) = [] := rfl
    have hbehind := h.behind
    rwa [hnil] at hbehind
  · exact
      { text := by
          have hsplit : ch '<' :: (w ++ ch '>' :: sLine') ++ sBehind =
              (ch '<' :: (w ++ [ch '>'])) ++ (sLine' ++ sBehind) := by simp
          rw [hu, ← drop_drop, h.text, hsplit, drop_left' (by simp)]
        line := by
          have hdrop (w : CString) (hl : sLine' ≠ [])
              (hlines : Lines.lines (ch '\n') (w ++ sLine' ++ sBehind) =
                (w ++ sLine') :: Lines.lines (ch '\n') sBehind) :
              Lines.lines (ch '\n') (sLine' ++ sBehind) = sLine' :: Lines.lines (ch '\n') sBehind := by
            induction w with
            | nil => exact hlines
            | cons a w ih => exact ih (Lines.lines_tail hlines (by simp [hl]))
          exact fun hl => hdrop (ch '<' :: (w ++ [ch '>'])) hl (by simpa using hline)
        events := by rw [hrest, ← hlen, hes]
        behind := by rw [← hend]; exact hbehind }
  · rw [restOfLine, hscan, hlen]
    cases hc : st.foundATag.tag tmpl sMid u sLine' with
    | mk st' c => cases c <;> rfl

theorem Ends.tag {sMid sLineEnd : CString} {u : ℕ} (h : Ends tmpl sText vStart st' es r)
    (hst : ∀ sLine, st.foundATag.tag tmpl sMid u sLine = (st', .continue))
    (hctx : ∀ q, Behind vStart st.vLoopContexts q → Behind vStart st'.vLoopContexts q) :
    Ends tmpl sText vStart st (.tag sMid u sLineEnd :: es) r := by
  rw [Ends, if_neg (cons_ne_nil _ _)]
  intro uCurPos sLine sBehind hhere
  obtain ⟨sLine', -, -, hu, hbehind, hnext, hrest⟩ := hhere.tag tmpl
  obtain ⟨fuel, bRet, st'', hrest', hr⟩ := h.here (hnext _ (hctx _ (hbehind.mono (by omega))))
  exact ⟨fuel, bRet, st'', by rw [hrest, hst]; exact hrest', hr⟩

/-- a tag that leaves the rest of its line unread -/
theorem Ends.jump {sMid sLineEnd : CString} {u : ℕ}
    (h : Ends tmpl sText vStart st'.endLine.startLine (behindLine es) r)
    (hst : ∀ sLine, st.foundATag.tag tmpl sMid u sLine = (st', .break))
    (hctx : st'.vLoopContexts = st.vLoopContexts) :
    Ends tmpl sText vStart st (.tag sMid u sLineEnd :: es) r := by
  rw [Ends, if_neg (cons_ne_nil _ _)]
  intro uCurPos sLine sBehind hhere
  obtain ⟨sLine', -, -, hu, hbehind, hnext, hrest⟩ := hhere.tag tmpl
  have hhere' := hnext _ (hbehind.mono (Nat.le_add_right_of_le hu.le))
  have hes : events (u + sLine'.length) (sText.drop (u + sLine'.length)) = behindLine es := by
    rw [← drop_drop, hhere'.text, drop_left, ← hhere'.events, behindLine, dropWhile_append_of_pos (fun e he => ?_)]
    · simp
    · have hne : e ≠ .eol := fun h => eol_not_mem_lineEvents u sLine' (h ▸ he)
      simpa using hne
  obtain ⟨fuel, bRet, st'', hloop, hr⟩ := h.printLoop hes
    (by rw [State.endLine, hctx]; exact hbehind.mono (by omega))
  exact ⟨fuel, bRet, st'', by rw [hrest, hst]; exact hloop, hr⟩

/-- a tag that goes back -/
theorem Ends.seek {sMid sLineEnd : CString} {u uFilePos : ℕ} {es' : List Event}
    (h : Ends tmpl sText vStart st'.endLine.startLine es' r)
    (hst : ∀ sLine, st.foundATag.tag tmpl sMid u sLine = (st', .seek uFilePos))
    (hes : events uFilePos (sText.drop uFilePos) = es')
    (hctx : ∀ q, Behind vStart st.vLoopContexts q → Behind vStart st'.vLoopContexts uFilePos) :
    Ends tmpl sText vStart st (.tag sMid u sLineEnd :: es) r := by
  rw [Ends, if_neg (cons_ne_nil _ _)]
  intro uCurPos sLine sBehind hhere
  obtain ⟨sLine', -, -, hu, hbehind, hnext, hrest⟩ := hhere.tag tmpl
  obtain ⟨fuel, bRet, st'', hloop, hr⟩ := h.printLoop hes (hctx _ hbehind)
  exact ⟨fuel, bRet, st'', by rw [hrest, hst]; exact hloop, hr⟩

theorem Behind.head_ne {vLoopContexts : List (LoopContext Tmpl)} {u u' : ℕ} (h : Behind vStart vLoopContexts u)
    (hu : u < u')
    (hstart : vLoopContexts = vStart → vLoopContexts.head?.map LoopContext.uFilePosition ≠ some u') :
    vLoopContexts.head?.map LoopContext.uFilePosition ≠ some u' := by
  obtain ⟨v, hv, hpos⟩ := h
  cases v with
  | nil => exact hstart hv
  | cons context v =>
    have hle := (pairwise_cons.1 hpos).1 context.uFilePosition (by simp)
    subst hv
    simp
    omega

theorem Behind.push {vLoopContexts : List (LoopContext Tmpl)} {u : ℕ} (h : Behind vStart vLoopContexts u)
    {context : LoopContext Tmpl} (hu : u ≤ context.uFilePosition) :
    Behind vStart (context :: vLoopContexts) context.uFilePosition := by
  obtain ⟨v, rfl, hpos⟩ := h
  obtain ⟨hle, hpos⟩ := pairwise_cons.1 hpos
  refine ⟨context :: v, rfl, ?_⟩
  rw [map_cons, pairwise_cons, pairwise_cons]
  refine ⟨?_, fun p hp => (hle p hp).trans hu, hpos⟩
  intro p hp
  rcases mem_cons.1 hp with rfl | hp
  · exact le_rfl
  · exact (hle p hp).trans hu

theorem Behind.pop {vLoopContexts : List (LoopContext Tmpl)} {context : LoopContext Tmpl} {u : ℕ}
    (h : Behind vStart (context :: vLoopContexts) u) (hctx : vStart <:+ vLoopContexts) :
    Behind vStart vLoopContexts context.uFilePosition ∧ context.uFilePosition ≤ u := by
  obtain ⟨v, hv, hpos⟩ := h
  cases v with
  | nil =>
    rw [nil_append] at hv
    have hlen := hctx.length_le
    rw [← hv, length_cons] at hlen
    omega
  | cons context' v =>
    rw [cons_append] at hv
    obtain ⟨rfl, hv'⟩ := List.cons.inj hv
    obtain ⟨hle, hpos⟩ := pairwise_cons.1 hpos
    exact ⟨⟨v, hv', hpos⟩, hle _ mem_cons_self⟩

theorem State.tag_loop (st : State Tmpl) (tmpl : CTemplate Tmpl) {sMid : CString} (hact : sAction sMid = .LOOP)
    (hskip : st.uSkip = 0) (hcont : st.bLoopCont = false) (hbreak : st.bLoopBreak = false) (u : ℕ) (sLine : CString) :
    st.tag tmpl sMid u sLine = (st.loop tmpl (sArgs sMid) u sLine, .continue) := by
  rw [State.tag, if_neg (by simp [hcont, hbreak])]
  simp only [hact]
  rw [if_pos hskip]

/-- a loop that has rows: where it starts, its body and what is behind it are still to come -/
theorem Ends.loop {sMid sLineEnd : CString} {u : ℕ} {cursor : Cursor Tmpl} (hact : sAction sMid = .LOOP)
    (hskip : st.uSkip = 0) (hcont : st.bLoopCont = false) (hbreak : st.bLoopBreak = false)
    (hnew : tmpl.newLoop st.cursors (sArgs sMid) = some cursor)
    (hstart : st.vLoopContexts = vStart → st.vLoopContexts.head?.map LoopContext.uFilePosition ≠ some u)
    (hes : es ≠ [.eol])
    (h : ∀ uFilePos, events uFilePos (sText.drop uFilePos) = es →
      Ends tmpl sText vStart
        { st.foundATag with vLoopContexts := ⟨uFilePos, cursor, false⟩ :: st.vLoopContexts }
        (lineEndEvents sLineEnd ++ es) r) :
    Ends tmpl sText vStart st (.tag sMid u sLineEnd :: (lineEndEvents sLineEnd ++ es)) r := by
  rw [Ends, if_neg (cons_ne_nil _ _)]
  intro uCurPos sLine sBehind hhere
  obtain ⟨sLine', rfl, hlast, hu, hbehind, hnext, hrest⟩ := hhere.tag tmpl
  have hhere' := hnext _ (hbehind.mono (Nat.le_add_right_of_le hu.le))
  have hevents := events_behind_lineEnd hhere'.line hlast hes hhere'.events
  rw [← hhere'.text, drop_drop] at hevents
  have htag : st.foundATag.tag tmpl sMid u sLine' =
      ({ st.foundATag with
          vLoopContexts := ⟨u + (State.lineEnd sLine').length, cursor, false⟩ :: st.vLoopContexts }, .continue) := by
    have hnew' : tmpl.newLoop st.foundATag.cursors (sArgs sMid) = some cursor := hnew
    have hne : ¬ st.foundATag.vLoopContexts.head?.map LoopContext.uFilePosition = some u := hbehind.head_ne hu hstart
    rw [st.foundATag.tag_loop tmpl hact hskip hcont hbreak, State.loop, if_neg hne, hnew']
    rfl
  obtain ⟨fuel, bRet, st', hrest', hr⟩ := (h _ hevents).here
    (hnext _ ((hbehind.mono (Nat.le_add_right_of_le hu.le)).push le_rfl))
  exact ⟨fuel, bRet, st', by rw [hrest, htag]; exact hrest', hr⟩

theorem Ends.noLoop {sMid sLineEnd : CString} {u : ℕ} (hact : sAction sMid = .LOOP)
    (hskip : st.uSkip = 0) (hcont : st.bLoopCont = false) (hbreak : st.bLoopBreak = false)
    (hnew : tmpl.newLoop st.cursors (sArgs sMid) = none)
    (hstart : st.vLoopContexts = vStart → st.vLoopContexts.head?.map LoopContext.uFilePosition ≠ some u)
    (h : Ends tmpl sText vStart { st.foundATag with uSkip := 1 } es r) :
    Ends tmpl sText vStart st (.tag sMid u sLineEnd :: es) r := by
  rw [Ends, if_neg (cons_ne_nil _ _)]
  intro uCurPos sLine sBehind hhere
  obtain ⟨sLine', rfl, hlast, hu, hbehind, hnext, hrest⟩ := hhere.tag tmpl
  have htag : st.foundATag.tag tmpl sMid u sLine' = ({ st.foundATag with uSkip := 1 }, .continue) := by
    have hnew' : tmpl.newLoop st.foundATag.cursors (sArgs sMid) = none := hnew
    have hne : ¬ st.foundATag.vLoopContexts.head?.map LoopContext.uFilePosition = some u := hbehind.head_ne hu hstart
    rw [st.foundATag.tag_loop tmpl hact hskip hcont hbreak, State.loop, if_neg hne, hnew']
    simp only [show st.foundATag.uSkip = 0 from hskip, Nat.zero_add]
  obtain ⟨fuel, bRet, st', hrest', hr⟩ := h.here (hnext _ (hbehind.mono (Nat.le_add_right_of_le hu.le)))
  exact ⟨fuel, bRet, st', by rw [hrest, htag]; exact hrest', hr⟩

/-! ### From the start of the text -/

theorem prints_of_ends (h : Ends tmpl sText vStart (.init vStart) (events 0 sText) r) :
    tmpl.Prints sText vStart r.bRet r.oOut r.vLoopContexts := by
  have hinit : Ends tmpl sText vStart (State.init vStart).startLine (events 0 sText) r := h
  have hbehind : Behind vStart (State.init vStart).vLoopContexts 0 := ⟨[], rfl, pairwise_singleton _ _⟩
  obtain ⟨fuel, bRet, st, hloop, rfl⟩ := hinit.printLoop (congrArg (events 0) drop_zero) hbehind
  exact ⟨fuel, st, hloop, rfl, rfl⟩

end Ends

theorem printLoop_mono {tmpl : CTemplate Tmpl} {sText : CString} {fuel uFilePos : ℕ} {st : State Tmpl}
    {ret : Bool × State Tmpl} (h : printLoop tmpl sText fuel uFilePos st = some ret) (n : ℕ) :
    printLoop tmpl sText (fuel + n) uFilePos st = some ret := by
  induction fuel generalizing uFilePos st with
  | zero => cases h
  | succ fuel ih =>
    rw [Nat.add_right_comm]
    rw [printLoop] at h ⊢
    split
    · rename_i hline
      rwa [hline] at h
    · rename_i sLine hline
      rw [hline] at h
      dsimp only at h
      split
      · rename_i hscan
        rwa [hscan] at h
      · rename_i hscan
        rw [hscan] at h
        exact ih h
      · rename_i hscan
        rw [hscan] at h
        exact ih h

theorem CTemplate.Prints.unique {tmpl : CTemplate Tmpl} {sText : CString}
    {vLoopContexts vLoopContexts₁ vLoopContexts₂ : List (LoopContext Tmpl)} {bRet₁ bRet₂ : Bool} {oOut₁ oOut₂ : CString}
    (h₁ : tmpl.Prints sText vLoopContexts bRet₁ oOut₁ vLoopContexts₁)
    (h₂ : tmpl.Prints sText vLoopContexts bRet₂ oOut₂ vLoopContexts₂) :
    bRet₁ = bRet₂ ∧ oOut₁ = oOut₂ ∧ vLoopContexts₁ = vLoopContexts₂ := by
  obtain ⟨fuel₁, st₁, hloop₁, rfl, rfl⟩ := h₁
  obtain ⟨fuel₂, st₂, hloop₂, rfl, rfl⟩ := h₂
  have hsame := (printLoop_mono hloop₁ fuel₂).symm.trans
    ((congrArg (printLoop tmpl sText · 0 _) (Nat.add_comm fuel₁ fuel₂)).trans (printLoop_mono hloop₂ fuel₁))
  cases hsame
  exact ⟨rfl, rfl, rfl⟩

/-! ## What is skipped -/

/-- an event that is not shown -/
def Written.hide (w : Written) : Event → Written
  | .tag .. => w.foundATag
  | .eol => w.endLine.startLine
  | _ => w

def Written.hides (w : Written) (es : List Event) : Written := es.foldl Written.hide w

section Skip

variable {tmpl : CTemplate Tmpl} {sText : CString} {vStart vLoopContexts : List (LoopContext Tmpl)} {bValidLastIf : Bool}
  {k : ℕ} {w : Written} {es : List Event} {r : Result Tmpl}

/-- `Print` while no row and no loop is being left -/
def State.reading (bValidLastIf : Bool) (uSkip : ℕ) (vLoopContexts : List (LoopContext Tmpl))
    (w : Written) : State Tmpl :=
  ⟨bValidLastIf, uSkip, false, false, vLoopContexts, w⟩

theorem Ends.skip_opens {a : Action} {t : Tag a} (ha : a = .IF ∨ a = .REM ∨ a = .LOOP)
    (h : Ends tmpl sText vStart (.reading bValidLastIf (k + 2) vLoopContexts w.foundATag) es r) :
    Ends tmpl sText vStart (.reading bValidLastIf (k + 1) vLoopContexts w) (t.event :: es) r := by
  refine h.tag (fun sLine => ?_) fun _ hq => hq
  rcases ha with rfl | rfl | rfl <;> simp [State.tag, State.reading, State.foundATag, t.action]

theorem Ends.skip_closes {a : Action} {t : Tag a} (ha : a = .ENDIF ∨ a = .ENDREM ∨ a = .ENDLOOP)
    (h : Ends tmpl sText vStart (.reading bValidLastIf k vLoopContexts w.foundATag) es r) :
    Ends tmpl sText vStart (.reading bValidLastIf (k + 1) vLoopContexts w) (t.event :: es) r := by
  refine h.tag (fun sLine => ?_) fun _ hq => hq
  rcases ha with rfl | rfl | rfl <;> simp [State.tag, State.reading, State.foundATag, t.action]

theorem Ends.skip_same {a : Action} {t : Tag a}
    (ha : a = .VAR ∨ a = .CONTINUE ∨ a = .BREAK ∨ a = .ELSE ∧ (bValidLastIf = true ∨ k ≠ 0))
    (h : Ends tmpl sText vStart (.reading bValidLastIf (k + 1) vLoopContexts w.foundATag) es r) :
    Ends tmpl sText vStart (.reading bValidLastIf (k + 1) vLoopContexts w) (t.event :: es) r := by
  refine h.tag (fun sLine => ?_) fun _ hq => hq
  rcases ha with rfl | rfl | rfl | ⟨rfl, hv | hk⟩
  · simp [State.tag, State.text, State.reading, State.foundATag, t.action]
  · simp [State.tag, State.reading, State.foundATag, t.action]
  · simp [State.tag, State.reading, State.foundATag, t.action]
  · simp [State.tag, State.reading, State.foundATag, t.action, hv]
  · simp [State.tag, State.reading, State.foundATag, t.action, hk]

theorem Ends.skip_byte {c : UInt8} (h : Ends tmpl sText vStart (.reading bValidLastIf (k + 1) vLoopContexts w) es r) :
    Ends tmpl sText vStart (.reading bValidLastIf (k + 1) vLoopContexts w) (.byte c :: es) r := by
  have htext : (State.reading bValidLastIf (k + 1) vLoopContexts w).text [c] =
    .reading bValidLastIf (k + 1) vLoopContexts w :=
    if_neg (Nat.succ_ne_zero k)
  exact Ends.byte (by rwa [htext])

@[simp] theorem Written.hides_cons (w : Written) (e : Event) (es : List Event) :
    w.hides (e :: es) = (w.hide e).hides es :=
  rfl

@[simp] theorem Written.hides_append (w : Written) (es es' : List Event) :
    w.hides (es ++ es') = (w.hides es).hides es' :=
  foldl_append

theorem Ends.skip_lineEnd (sLineEnd : CString)
    (h : Ends tmpl sText vStart (.reading bValidLastIf (k + 1) vLoopContexts (w.hides (lineEndEvents sLineEnd))) es r) :
    Ends tmpl sText vStart (.reading bValidLastIf (k + 1) vLoopContexts w) (lineEndEvents sLineEnd ++ es) r := by
  induction sLineEnd generalizing w with
  | nil => exact h
  | cons c s ih =>
    rw [lineEndEvents, flatMap_cons, ← lineEndEvents] at h ⊢
    rw [Written.hides_append] at h
    split at h
    next hc =>
      rw [if_pos hc]
      exact skip_byte (Ends.eol (ih h))
    next hc =>
      rw [if_neg hc]
      exact skip_byte (ih h)

mutual

theorem Ends.skip (T : Nodes) (k : ℕ) (w : Written) (es : List Event)
    (h : Ends tmpl sText vStart (.reading bValidLastIf (k + 1) vLoopContexts (w.hides T.events)) es r) :
    Ends tmpl sText vStart (.reading bValidLastIf (k + 1) vLoopContexts w) (T.events ++ es) r := by
  cases T with
  | nil => exact h
  | byte c rest => exact skip_byte (skip rest k w es h)
  | eol rest => exact Ends.eol (skip rest k _ es h)
  | var t rest => exact skip_same (by simp) (skip rest k _ es h)
  | «continue» t rest => exact skip_same (by simp) (skip rest k _ es h)
  | «break» t rest => exact skip_same (by simp) (skip rest k _ es h)
  | rem t body e rest =>
    simp only [Nodes.events, Written.hides_cons, Written.hides_append] at h
    simp only [Nodes.events, cons_append, append_assoc]
    exact skip_opens (by simp) (skip body (k + 1) _ _ (skip_closes (by simp) (skip rest k _ es h)))
  | chain t body elses e rest =>
    simp only [Nodes.events, Written.hides_cons, Written.hides_append] at h
    simp only [Nodes.events, cons_append, append_assoc]
    refine skip_opens (by simp) (skip body (k + 1) _ _ ?_)
    exact skipElses elses (k + 1) _ _ (by simp) (skip_closes (by simp) (skip rest k _ es h))
  | loop t body e rest =>
    simp only [Nodes.events, Written.hides_cons, Written.hides_append] at h
    simp only [Nodes.events, cons_append, append_assoc]
    refine skip_opens (by simp) (skip_lineEnd _ (skip body (k + 1) _ _ ?_))
    exact skip_closes (by simp) (skip rest k _ es h)

theorem Ends.skipElses (B : Branches) (k : ℕ) (w : Written) (es : List Event) (hk : bValidLastIf = true ∨ k ≠ 0)
    (h : Ends tmpl sText vStart (.reading bValidLastIf (k + 1) vLoopContexts (w.hides B.events)) es r) :
    Ends tmpl sText vStart (.reading bValidLastIf (k + 1) vLoopContexts w) (B.events ++ es) r := by
  cases B with
  | nil => exact h
  | cons t body rest =>
    simp only [Branches.events, Written.hides_cons, Written.hides_append] at h
    simp only [Branches.events, cons_append, append_assoc]
    exact skip_same (.inr (.inr (.inr ⟨rfl, hk⟩))) (skip body k _ _ (skipElses rest k _ es hk h))

end

/-! ## What is shown -/

def cursors (vLoopContexts : List (LoopContext Tmpl)) : List (Cursor Tmpl) := vLoopContexts.map LoopContext.cursor

/-- what an event puts out -/
def Event.value (getValue : CString → CString) : Event → CString
  | .byte c => [c]
  | .tag sMid _ _ => if sAction sMid = .VAR then getValue (sArgs sMid) else []
  | _ => []

/-- one event of the text, shown or not -/
def Written.emit (getValue : CString → CString) (w : Written) (m : Event × Bool) : Written :=
  if m.2 then (w.hide m.1).put (m.1.value getValue) else w.hide m.1

def Written.emits (getValue : CString → CString) (w : Written) (ms : List (Event × Bool)) : Written :=
  ms.foldl (Written.emit getValue) w

section Emit

variable {getValue : CString → CString}

variable (w : Written)

@[simp] theorem Written.put_nil : w.put [] = w := by
  rw [Written.put, append_nil]

@[simp] theorem emits_nil : w.emits getValue [] = w :=
  rfl

@[simp] theorem emits_cons (m : Event × Bool) (ms : List (Event × Bool)) :
    w.emits getValue (m :: ms) = (w.emit getValue m).emits getValue ms :=
  rfl

@[simp] theorem emits_append (ms ms' : List (Event × Bool)) :
    w.emits getValue (ms ++ ms') = (w.emits getValue ms).emits getValue ms' :=
  foldl_append

@[simp] theorem emit_false (e : Event) : w.emit getValue (e, false) = w.hide e :=
  rfl

@[simp] theorem emit_byte (c : UInt8) : w.emit getValue (.byte c, true) = w.put [c] :=
  rfl

@[simp] theorem emit_eol : w.emit getValue (.eol, true) = w.endLine.startLine :=
  w.endLine.startLine.put_nil

@[simp] theorem emit_var (t : Tag .VAR) :
    w.emit getValue (t.event, true) = w.foundATag.put (getValue (sArgs t.sMid)) := by
  rw [Written.emit, if_pos rfl, Tag.event, Event.value, if_pos t.action]
  rfl

@[simp] theorem hide_tag {a : Action} (t : Tag a) : w.hide t.event = w.foundATag :=
  rfl

end Emit

theorem Ends.show_byte {c : UInt8}
    (h : Ends tmpl sText vStart (.reading bValidLastIf 0 vLoopContexts (w.put [c])) es r) :
    Ends tmpl sText vStart (.reading bValidLastIf 0 vLoopContexts w) (.byte c :: es) r :=
  Ends.byte h

theorem Ends.show_var {t : Tag .VAR}
    (h : Ends tmpl sText vStart (.reading bValidLastIf 0 vLoopContexts
      (w.foundATag.put (tmpl.getValue (cursors vLoopContexts) (sArgs t.sMid)))) es r) :
    Ends tmpl sText vStart (.reading bValidLastIf 0 vLoopContexts w) (t.event :: es) r := by
  refine h.tag (fun sLine => ?_) fun _ hq => hq
  simp [State.tag, State.text, State.reading, State.foundATag, t.action, State.cursors, cursors]

theorem Ends.show_rem {t : Tag .REM}
    (h : Ends tmpl sText vStart (.reading bValidLastIf 1 vLoopContexts w.foundATag) es r) :
    Ends tmpl sText vStart (.reading bValidLastIf 0 vLoopContexts w) (t.event :: es) r := by
  refine h.tag (fun sLine => ?_) fun _ hq => hq
  simp [State.tag, State.reading, State.foundATag, t.action]

theorem Ends.show_if {t : Tag .IF}
    (h : Ends tmpl sText vStart
      (.reading (tmpl.validIf (cursors vLoopContexts) (sArgs t.sMid))
        (if tmpl.validIf (cursors vLoopContexts) (sArgs t.sMid) then 0 else 1) vLoopContexts w.foundATag) es r) :
    Ends tmpl sText vStart (.reading bValidLastIf 0 vLoopContexts w) (t.event :: es) r := by
  refine h.tag (fun sLine => ?_) fun _ hq => hq
  cases hv : tmpl.validIf (cursors vLoopContexts) (sArgs t.sMid) <;>
    simp only [cursors] at hv <;>
    simp [State.tag, State.reading, State.foundATag, t.action, State.cursors, hv]

theorem Ends.show_else {t : Tag .ELSE}
    (h : Ends tmpl sText vStart (.reading bValidLastIf 1 vLoopContexts w.foundATag) es r) :
    Ends tmpl sText vStart (.reading bValidLastIf 0 vLoopContexts w) (t.event :: es) r := by
  refine h.tag (fun sLine => ?_) fun _ hq => hq
  simp [State.tag, State.reading, State.foundATag, t.action]

theorem Ends.wait_else {t : Tag .ELSE}
    (h : Ends tmpl sText vStart
      (.reading (validElse (tmpl.validIf (cursors vLoopContexts)) (sArgs t.sMid))
        (if validElse (tmpl.validIf (cursors vLoopContexts)) (sArgs t.sMid) then 0 else 1) vLoopContexts w.foundATag) es r) :
    Ends tmpl sText vStart (.reading false 1 vLoopContexts w) (t.event :: es) r := by
  refine h.tag (fun sLine => ?_) fun _ hq => hq
  cases hv : validElse (tmpl.validIf (cursors vLoopContexts)) (sArgs t.sMid) <;>
    simp only [cursors] at hv <;>
    simp [State.tag, State.reading, State.foundATag, t.action, State.cursors, hv]

theorem Ends.show_endif {t : Tag .ENDIF}
    (h : Ends tmpl sText vStart (.reading bValidLastIf 0 vLoopContexts w.foundATag) es r) :
    Ends tmpl sText vStart (.reading bValidLastIf 0 vLoopContexts w) (t.event :: es) r := by
  refine h.tag (fun sLine => ?_) fun _ hq => hq
  simp [State.tag, State.reading, State.foundATag, t.action]

end Skip

end ZNC.Template
