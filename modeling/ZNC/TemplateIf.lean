/-
Conditionals in templates: `IF`, `ELSE IF`, `ELSE` and `ENDIF` in `CTemplate::Print` of `src/Template.cpp`.

The first branch of a conditional whose condition holds should be shown, and nothing of the others. `Print` knows of the
conditionals it is in by the counter `uSkip` and by `bValidLastIf`, one flag for all of them: whether the condition that was
asked last has held. A conditional inside a branch that is shown leaves that flag as its own last condition was, and an `ELSE`
behind the branch then skips what is behind it with the flag down, so that the next one after it is asked again.

`Nodes.chosen` says which events of a template should be shown, `Nodes.marks` which ones are: those of the chosen branches, and
stray ones of branches that should not be.

Results:
- `Ends.shown`: what `Print` shows of a template without loops;
- `marks_chosen`: all that should be shown is, and the rest is stray;
- `prints_chosen_iff`: exactly when nothing stray comes out.
-/
import ZNC.TemplateText

namespace ZNC.Template

open CString List

/-! ## What should be shown -/

mutual

/-- no loops, and nothing that leaves one -/
def Nodes.LoopFree : Nodes → Prop
  | .nil => True
  | .byte _ rest | .eol rest | .var _ rest => rest.LoopFree
  | .rem _ body _ rest => body.LoopFree ∧ rest.LoopFree
  | .chain _ body elses _ rest => body.LoopFree ∧ elses.LoopFree ∧ rest.LoopFree
  | .loop .. | .continue .. | .break .. => False

def Branches.LoopFree : Branches → Prop
  | .nil => True
  | .cons _ body rest => body.LoopFree ∧ rest.LoopFree

end

section Marks

variable (validIf : CString → Bool)

/-- the events of what is not shown -/
def hidden (es : List Event) : List (Event × Bool) := es.map (·, false)

mutual

/-- the events of a template, with the loops in it taken for hidden, and whether they should be shown -/
def Nodes.chosen : Nodes → List (Event × Bool)
  | .nil => []
  | .byte c rest => (.byte c, true) :: rest.chosen
  | .eol rest => (.eol, true) :: rest.chosen
  | .var t rest => (t.event, true) :: rest.chosen
  | .rem t body e rest => (t.event, false) :: (hidden body.events ++ (e.event, false) :: rest.chosen)
  | .chain t body elses e rest =>
    (t.event, false) ::
      ((if validIf (sArgs t.sMid) then body.chosen ++ hidden elses.events else hidden body.events ++
        elses.firstValid) ++
        (e.event, false) :: rest.chosen)
  | .loop t body e rest =>
    (t.event, false) :: (hidden (lineEndEvents t.sLineEnd ++ body.events) ++ (e.event, false) :: rest.chosen)
  | .continue t rest | .break t rest => (t.event, false) :: rest.chosen

/-- the first branch whose condition holds -/
def Branches.firstValid : Branches → List (Event × Bool)
  | .nil => []
  | .cons t body rest =>
    (t.event, false) ::
      if validElse validIf (sArgs t.sMid) then body.chosen ++ hidden rest.events
      else hidden body.events ++ rest.firstValid

end

/-! ## What is shown -/

mutual

/-- `bValidLastIf` behind a template that is shown -/
def Nodes.endValid (bValidLastIf : Bool) : Nodes → Bool
  | .nil => bValidLastIf
  | .byte _ rest | .eol rest | .var _ rest | .rem _ _ _ rest | .loop _ _ _ rest | .continue _ rest | .break _ rest =>
    rest.endValid bValidLastIf
  | .chain t body elses _ rest =>
    rest.endValid
      (if validIf (sArgs t.sMid) then elses.validBehind (body.endValid true) else elses.validWaiting)

/-- `bValidLastIf` at the end of branches behind one that was shown -/
def Branches.validBehind (bValidLastIf : Bool) : Branches → Bool
  | .nil => bValidLastIf
  | .cons _ _ rest => if bValidLastIf then true else rest.validWaiting

/-- `bValidLastIf` at the end of branches that are asked -/
def Branches.validWaiting : Branches → Bool
  | .nil => false
  | .cons t body rest =>
    if validElse validIf (sArgs t.sMid) then rest.validBehind (body.endValid true) else rest.validWaiting

end

inductive Mark where
  | hidden
  | shown
  /-- shown and of a branch that should not be -/
  | stray
deriving DecidableEq

/-- the events of a branch that should not be shown -/
def strays (ms : List (Event × Mark)) : List (Event × Mark) :=
  ms.map fun (e, m) => (e, if m = .shown then .stray else m)

def allHidden (es : List Event) : List (Event × Mark) := es.map (·, .hidden)

mutual

/-- the events of a template, with the loops in it taken for hidden, and what becomes of them -/
def Nodes.marks : Nodes → List (Event × Mark)
  | .nil => []
  | .byte c rest => (.byte c, .shown) :: rest.marks
  | .eol rest => (.eol, .shown) :: rest.marks
  | .var t rest => (t.event, .shown) :: rest.marks
  | .rem t body e rest => (t.event, .hidden) :: (allHidden body.events ++ (e.event, .hidden) :: rest.marks)
  | .chain t body elses e rest =>
    (t.event, .hidden) ::
      ((if validIf (sArgs t.sMid) then body.marks ++ elses.behind (body.endValid validIf true)
        else allHidden body.events ++ elses.waiting) ++
        (e.event, .hidden) :: rest.marks)
  | .loop t body e rest =>
    (t.event, .hidden) :: (allHidden (lineEndEvents t.sLineEnd ++ body.events) ++ (e.event, .hidden) :: rest.marks)
  | .continue t rest | .break t rest => (t.event, .hidden) :: rest.marks

/-- the branches behind one that was shown: with the flag down, those from the second one on are asked again -/
def Branches.behind (bValidLastIf : Bool) : Branches → List (Event × Mark)
  | .nil => []
  | .cons t body rest =>
    (t.event, .hidden) ::
      (allHidden body.events ++ if bValidLastIf then allHidden rest.events else strays rest.waiting)

def Branches.waiting : Branches → List (Event × Mark)
  | .nil => []
  | .cons t body rest =>
    (t.event, .hidden) ::
      if validElse validIf (sArgs t.sMid) then body.marks ++ rest.behind (body.endValid validIf true)
      else allHidden body.events ++ rest.waiting

end

end Marks

/-! ## What comes out -/

section Output

variable (getValue : CString → CString)

def Event.isTag : Event → Bool
  | .tag .. => true
  | _ => false

/-- the lines, without their ends; `l` is the line being read -/
def markLines {α : Type} (l : List (Event × α)) : List (Event × α) → List (List (Event × α))
  | [] => []
  | m :: ms => if m.1 = .eol then l :: markLines [] ms else markLines (l ++ [m]) ms

/-- what is shown of a line -/
def lineText (l : List (Event × Bool)) : CString := l.flatMap fun m => if m.2 then m.1.value getValue else []

/-- a line that has tags and comes out blank is left out -/
def lineOutput (l : List (Event × Bool)) : CString :=
  if !l.any (·.1.isTag) || (lineText getValue l).any (· ∉ Config.blanks) then lineText getValue l else []

/-- what a template without loops should put out -/
def Nodes.output (validIf : CString → Bool) (T : Nodes) : CString :=
  (markLines [] (T.chosen validIf)).flatMap (lineOutput getValue)

/-- nothing stray puts anything out on a line, unless the line is left out anyhow -/
def LeftAlone (l : List (Event × Mark)) : Prop :=
  (∀ m ∈ l, m.2 = .stray → m.1.value getValue = []) ∨
    l.any (·.1.isTag) ∧ ∀ m ∈ l, m.2 ≠ .hidden → ∀ c ∈ m.1.value getValue, c ∈ Config.blanks

instance (l : List (Event × Mark)) : Decidable (LeftAlone getValue l) := inferInstanceAs (Decidable (_ ∨ _))

end Output

/-! ## What `Print` does -/

section Print

/-- the events with what `p` says of their marks -/
def marked (p : Mark → Bool) (ms : List (Event × Mark)) : List (Event × Bool) := ms.map fun m => (m.1, p m.2)

/-- what `Print` shows -/
def Mark.visible : Mark → Bool
  | .hidden => false
  | .shown | .stray => true

/-- what should be shown -/
def Mark.wanted : Mark → Bool
  | .shown => true
  | .hidden | .stray => false

section Marked

variable {p : Mark → Bool} {getValue : CString → CString}

@[simp] theorem marked_cons (e : Event) (m : Mark) (ms : List (Event × Mark)) :
    marked p ((e, m) :: ms) = (e, p m) :: marked p ms :=
  rfl

@[simp] theorem marked_append (ms ms' : List (Event × Mark)) : marked p (ms ++ ms') = marked p ms ++ marked p ms' :=
  map_append

@[simp] theorem marked_nil : marked p [] = [] :=
  rfl

theorem marked_allHidden (hp : p .hidden = false) (es : List Event) : marked p (allHidden es) = hidden es := by
  simp [marked, allHidden, hidden, hp]

@[simp] theorem visible_allHidden (es : List Event) : marked Mark.visible (allHidden es) = hidden es :=
  marked_allHidden rfl es

@[simp] theorem wanted_allHidden (es : List Event) : marked Mark.wanted (allHidden es) = hidden es :=
  marked_allHidden rfl es

@[simp] theorem visible_strays (ms : List (Event × Mark)) :
    marked Mark.visible (strays ms) = marked Mark.visible ms := by
  rw [marked, marked, strays, map_map]
  refine map_congr_left fun m _ => ?_
  cases hm : m.2 <;> simp [Mark.visible, hm]

@[simp] theorem wanted_strays (ms : List (Event × Mark)) :
    marked Mark.wanted (strays ms) = hidden (ms.map Prod.fst) := by
  rw [marked, strays, hidden, map_map, map_map]
  refine map_congr_left fun m _ => ?_
  cases hm : m.2 <;> simp [Mark.wanted, hm]

@[simp] theorem emits_hidden (w : Written) (es : List Event) : w.emits getValue (hidden es) = w.hides es :=
  foldl_map

@[simp] theorem visible_shown : Mark.visible .shown = true :=
  rfl

@[simp] theorem visible_hidden : Mark.visible .hidden = false :=
  rfl

end Marked

variable {tmpl : CTemplate Tmpl} {sText : CString} {vStart vLoopContexts : List (LoopContext Tmpl)} {r : Result Tmpl}

mutual

theorem Ends.shown (T : Nodes) (hT : T.LoopFree) (bValidLastIf : Bool) (w : Written) (es : List Event)
    (h : Ends tmpl sText vStart
      (.reading (T.endValid (tmpl.validIf (cursors vLoopContexts)) bValidLastIf) 0 vLoopContexts
        (w.emits (tmpl.getValue (cursors vLoopContexts))
          (marked Mark.visible (T.marks (tmpl.validIf (cursors vLoopContexts)))))) es r) :
    Ends tmpl sText vStart (.reading bValidLastIf 0 vLoopContexts w) (T.events ++ es) r := by
  cases T with
  | nil => exact h
  | byte c rest => exact show_byte (shown rest hT bValidLastIf _ es h)
  | eol rest =>
    simp only [Nodes.marks, marked_cons, visible_shown, emits_cons, emit_eol] at h
    exact Ends.eol (shown rest hT bValidLastIf _ es h)
  | var t rest =>
    simp only [Nodes.marks, marked_cons, visible_shown, emits_cons, emit_var] at h
    exact show_var (shown rest hT bValidLastIf _ es h)
  | rem t body e rest =>
    simp only [Nodes.marks, marked_cons, marked_append, visible_hidden, visible_allHidden, emits_cons, emits_append,
      emits_hidden, emit_false, hide_tag] at h
    simp only [Nodes.events, cons_append, append_assoc]
    exact show_rem (skip body 0 _ _ (skip_closes (by simp) (shown rest hT.2 bValidLastIf _ es h)))
  | chain t body elses e rest =>
    obtain ⟨hbody, helses, hrest⟩ := hT
    simp only [Nodes.marks, Nodes.endValid, marked_cons, marked_append, visible_hidden, emits_cons, emits_append,
      emit_false, hide_tag] at h
    simp only [Nodes.events, cons_append, append_assoc]
    refine show_if ?_
    cases hv : tmpl.validIf (cursors vLoopContexts) (sArgs t.sMid) with
    | true =>
      simp only [hv, if_true, marked_append, emits_append] at h
      exact shown body hbody true _ _ (behind elses helses _ e _ _ (shown rest hrest _ _ es h))
    | false =>
      simp only [hv, Bool.false_eq_true, if_false, marked_append, visible_allHidden, emits_append, emits_hidden] at h
      exact skip body 0 _ _ (waiting elses helses e _ _ (shown rest hrest _ _ es h))
  | loop => exact hT.elim
  | «continue» => exact hT.elim
  | «break» => exact hT.elim

theorem Ends.behind (B : Branches) (hB : B.LoopFree) (bValidLastIf : Bool) (e : Tag .ENDIF)
    (w : Written) (es : List Event)
    (h : Ends tmpl sText vStart
      (.reading (B.validBehind (tmpl.validIf (cursors vLoopContexts)) bValidLastIf) 0 vLoopContexts
        (w.emits (tmpl.getValue (cursors vLoopContexts))
          (marked Mark.visible (B.behind (tmpl.validIf (cursors vLoopContexts)) bValidLastIf))).foundATag) es r) :
    Ends tmpl sText vStart (.reading bValidLastIf 0 vLoopContexts w) (B.events ++ e.event :: es) r := by
  cases B with
  | nil => exact show_endif h
  | cons t body rest =>
    simp only [Branches.behind, Branches.validBehind, marked_cons, marked_append, visible_hidden, visible_allHidden,
      emits_cons, emits_append, emits_hidden, emit_false, hide_tag] at h
    simp only [Branches.events, cons_append, append_assoc]
    refine show_else (skip body 0 _ _ ?_)
    cases bValidLastIf with
    | true =>
      simp only [if_true, visible_allHidden, emits_hidden] at h
      exact skipElses rest 0 _ _ (.inl rfl) (skip_closes (by simp) h)
    | false =>
      simp only [Bool.false_eq_true, if_false, visible_strays] at h
      exact waiting rest hB.2 e _ es h

theorem Ends.waiting (B : Branches) (hB : B.LoopFree) (e : Tag .ENDIF) (w : Written) (es : List Event)
    (h : Ends tmpl sText vStart
      (.reading (B.validWaiting (tmpl.validIf (cursors vLoopContexts))) 0 vLoopContexts
        (w.emits (tmpl.getValue (cursors vLoopContexts))
          (marked Mark.visible (B.waiting (tmpl.validIf (cursors vLoopContexts))))).foundATag) es r) :
    Ends tmpl sText vStart (.reading false 1 vLoopContexts w) (B.events ++ e.event :: es) r := by
  cases B with
  | nil => exact skip_closes (by simp) h
  | cons t body rest =>
    simp only [Branches.waiting, Branches.validWaiting, marked_cons, visible_hidden, emits_cons, emit_false,
      hide_tag] at h
    simp only [Branches.events, cons_append, append_assoc]
    refine wait_else ?_
    cases hv : validElse (tmpl.validIf (cursors vLoopContexts)) (sArgs t.sMid) with
    | true =>
      simp only [hv, if_true, marked_append, emits_append] at h
      exact shown body hB.1 true _ _ (behind rest hB.2 _ e _ es h)
    | false =>
      simp only [hv, Bool.false_eq_true, if_false, marked_append, visible_allHidden, emits_append, emits_hidden] at h
      exact skip body 0 _ _ (waiting rest hB.2 e _ es h)

end

/-! ## What should be shown is -/

section Chosen

variable {validIf : CString → Bool}

@[simp] theorem allHidden_events (es : List Event) : (allHidden es).map Prod.fst = es := by
  rw [allHidden, map_map]
  exact map_id es

@[simp] theorem strays_events (ms : List (Event × Mark)) : (strays ms).map Prod.fst = ms.map Prod.fst := by
  rw [strays, map_map]
  rfl

mutual

theorem marks_events (T : Nodes) : (T.marks validIf).map Prod.fst = T.events := by
  cases T with
  | nil => rfl
  | byte c rest => exact congrArg _ (marks_events rest)
  | eol rest => exact congrArg _ (marks_events rest)
  | var t rest => exact congrArg _ (marks_events rest)
  | «continue» t rest => exact congrArg _ (marks_events rest)
  | «break» t rest => exact congrArg _ (marks_events rest)
  | rem t body e rest => simp [Nodes.marks, Nodes.events, marks_events rest]
  | loop t body e rest => simp [Nodes.marks, Nodes.events, marks_events rest]
  | chain t body elses e rest =>
    cases hv : validIf (sArgs t.sMid) <;>
      simp [Nodes.marks, Nodes.events, hv, marks_events body, marks_events rest, behind_events elses,
        waiting_events elses]

theorem behind_events (B : Branches) (bValidLastIf : Bool) :
    (B.behind validIf bValidLastIf).map Prod.fst = B.events := by
  cases B with
  | nil => rfl
  | cons t body rest => cases bValidLastIf <;> simp [Branches.behind, Branches.events, waiting_events rest]

theorem waiting_events (B : Branches) : (B.waiting validIf).map Prod.fst = B.events := by
  cases B with
  | nil => rfl
  | cons t body rest =>
    cases hv : validElse validIf (sArgs t.sMid) <;>
      simp [Branches.waiting, Branches.events, hv, marks_events body, behind_events rest, waiting_events rest]

end

theorem behind_wanted (B : Branches) (bValidLastIf : Bool) :
    marked Mark.wanted (B.behind validIf bValidLastIf) = hidden B.events := by
  cases B with
  | nil => rfl
  | cons t body rest =>
    cases bValidLastIf <;> simp [Branches.behind, Branches.events, Mark.wanted, hidden, waiting_events rest]

mutual

theorem marks_chosen (T : Nodes) : marked Mark.wanted (T.marks validIf) = T.chosen validIf := by
  cases T with
  | nil => rfl
  | byte c rest => exact congrArg _ (marks_chosen rest)
  | eol rest => exact congrArg _ (marks_chosen rest)
  | var t rest => exact congrArg _ (marks_chosen rest)
  | «continue» t rest => exact congrArg _ (marks_chosen rest)
  | «break» t rest => exact congrArg _ (marks_chosen rest)
  | rem t body e rest => simp [Nodes.marks, Nodes.chosen, Mark.wanted, marks_chosen rest]
  | loop t body e rest => simp [Nodes.marks, Nodes.chosen, Mark.wanted, marks_chosen rest]
  | chain t body elses e rest =>
    cases hv : validIf (sArgs t.sMid) <;>
      simp [Nodes.marks, Nodes.chosen, Mark.wanted, hv, marks_chosen body, marks_chosen rest, behind_wanted,
        waiting_chosen elses]

theorem waiting_chosen (B : Branches) : marked Mark.wanted (B.waiting validIf) = B.firstValid validIf := by
  cases B with
  | nil => rfl
  | cons t body rest =>
    cases hv : validElse validIf (sArgs t.sMid) <;>
      simp [Branches.waiting, Branches.firstValid, Mark.wanted, hv, marks_chosen body, behind_wanted,
        waiting_chosen rest]

end

end Chosen

/-! ## Lines -/

section Lines

variable {getValue : CString → CString}

theorem lineText_append (l l' : List (Event × Bool)) :
    lineText getValue (l ++ l') = lineText getValue l ++ lineText getValue l' :=
  flatMap_append

theorem markLines_map {α β : Type} (f : α → β) (l ms : List (Event × α)) :
    markLines (l.map fun m => (m.1, f m.2)) (ms.map fun m => (m.1, f m.2)) =
      (markLines l ms).map fun l => l.map fun m => (m.1, f m.2) := by
  induction ms generalizing l with
  | nil => rfl
  | cons m ms ih =>
    rw [map_cons, markLines, markLines]
    split
    · rw [map_cons, ← ih []]
      rfl
    · rw [← ih, map_append]
      rfl

theorem emit_ne_eol (w : Written) {m : Event × Bool} (hm : m.1 ≠ .eol) :
    w.emit getValue m =
      ⟨w.oOut, w.sOutput ++ lineText getValue [m], w.bFoundATag || m.1.isTag, w.bTmplLoopHasData⟩ := by
  obtain ⟨e, b⟩ := m
  cases e <;> cases b <;>
    simp_all [Written.emit, Written.hide, Written.put, Written.foundATag, lineText, Event.value, Event.isTag]

variable (getValue) in
theorem emits_oOut {w : Written} (l ms : List (Event × Bool)) (hdata : w.bTmplLoopHasData = false)
    (htext : w.sOutput = lineText getValue l) (htag : w.bFoundATag = l.any (·.1.isTag)) :
    (w.emits getValue ms).oOut = w.oOut ++ (markLines l ms).flatMap (lineOutput getValue) := by
  induction ms generalizing w l with
  | nil => simp [markLines]
  | cons m ms ih =>
    rw [emits_cons, markLines]
    split
    next he =>
      have hemit : w.emit getValue m = w.endLine.startLine := by
        obtain ⟨e, b⟩ := m
        obtain rfl : e = .eol := he
        cases b
        · rfl
        · exact emit_eol w
      have hline : w.endLine.startLine.oOut = w.oOut ++ lineOutput getValue l := by
        simp only [Written.endLine, Written.startLine, hdata, htext, htag, lineOutput, Bool.or_false]
        split
        · rfl
        · rw [append_nil]
      rw [hemit, ih [] rfl rfl rfl, hline, flatMap_cons, append_assoc]
    next he =>
      rw [emit_ne_eol w he]
      exact ih (l ++ [m]) hdata (by rw [lineText_append, htext]) (by simp [htag])

theorem prints_visible {T : Nodes} (hT : T.LoopFree) (hevents : T.events = events 0 sText) :
    tmpl.Prints sText vStart true
      ((markLines [] (marked Mark.visible (T.marks (tmpl.validIf (cursors vStart))))).flatMap
        (lineOutput (tmpl.getValue (cursors vStart)))) vStart := by
  have houtput := emits_oOut (tmpl.getValue (cursors vStart)) (w := ⟨[], [], false, false⟩) []
    (marked Mark.visible (T.marks (tmpl.validIf (cursors vStart)))) rfl rfl rfl
  rw [nil_append] at houtput
  rw [← houtput]
  refine prints_of_ends (r := ⟨true, _, vStart⟩) ?_
  rw [← hevents, ← append_nil T.events]
  exact Ends.shown T hT false _ [] rfl

/-! ### Lines with strays -/

theorem flatMap_eq_iff {α β : Type} {f g : α → List β} (h : ∀ a, (f a).length ≤ (g a).length) (l : List α) :
    l.flatMap f = l.flatMap g ↔ ∀ a ∈ l, f a = g a := by
  refine ⟨fun heq => ?_, fun heq => flatMap_congr heq⟩
  have hle (l : List α) : (l.flatMap f).length ≤ (l.flatMap g).length := by
    induction l with
    | nil => exact le_rfl
    | cons a l ih =>
      rw [flatMap_cons, flatMap_cons, length_append, length_append]
      exact Nat.add_le_add (h a) ih
  induction l with
  | nil => simp
  | cons a l ih =>
    have hlen := congrArg List.length heq
    rw [flatMap_cons, flatMap_cons, length_append, length_append] at hlen
    have ha := h a
    have hl := hle l
    rw [flatMap_cons, flatMap_cons] at heq
    obtain ⟨hhead, htail⟩ := append_inj heq (by omega)
    exact forall_mem_cons.2 ⟨hhead, ih htail⟩

theorem lineText_marked_cons (p : Mark → Bool) (m : Event × Mark) (l : List (Event × Mark)) :
    lineText getValue (marked p (m :: l)) =
      (if p m.2 then m.1.value getValue else []) ++ lineText getValue (marked p l) :=
  rfl

variable (getValue) in
theorem wanted_sublist (l : List (Event × Mark)) :
    (lineText getValue (marked Mark.wanted l)).Sublist (lineText getValue (marked Mark.visible l)) := by
  induction l with
  | nil => exact .slnil
  | cons m l ih =>
    rw [lineText_marked_cons, lineText_marked_cons]
    refine List.Sublist.append ?_ ih
    cases m.2 <;> simp [Mark.wanted, Mark.visible]

theorem wanted_eq_iff (l : List (Event × Mark)) :
    lineText getValue (marked Mark.wanted l) = lineText getValue (marked Mark.visible l) ↔
      ∀ m ∈ l, m.2 = .stray → m.1.value getValue = [] := by
  induction l with
  | nil => simp
  | cons m l ih =>
    obtain ⟨e, m⟩ := m
    rw [lineText_marked_cons, lineText_marked_cons, forall_mem_cons, ← ih]
    cases m with
    | hidden => simp [Mark.wanted, Mark.visible]
    | shown => simp [Mark.wanted, Mark.visible]
    | stray =>
      have hlen := (wanted_sublist getValue l).length_le
      simp only [Mark.wanted, Mark.visible, Bool.false_eq_true, if_false, if_true, nil_append, true_implies]
      refine ⟨fun h => ?_, fun ⟨he, h⟩ => by rw [he, h, nil_append]⟩
      have hsum := congrArg List.length h
      rw [length_append] at hsum
      have he : e.value getValue = [] := eq_nil_of_length_eq_zero (by omega)
      rw [he, nil_append] at h
      exact ⟨he, h⟩

theorem visible_blank_iff (l : List (Event × Mark)) :
    (lineText getValue (marked Mark.visible l)).any (· ∉ Config.blanks) = false ↔
      ∀ m ∈ l, m.2 ≠ .hidden → ∀ c ∈ m.1.value getValue, c ∈ Config.blanks := by
  induction l with
  | nil => simp [lineText]
  | cons m l ih =>
    rw [lineText_marked_cons, any_append, Bool.or_eq_false_iff, ih, forall_mem_cons]
    refine and_congr_left' ?_
    cases m.2 <;> simp [Mark.visible]

theorem any_isTag_marked (p : Mark → Bool) (l : List (Event × Mark)) :
    (marked p l).any (·.1.isTag) = l.any (·.1.isTag) := by
  rw [marked, any_map]
  rfl

theorem wanted_length_le (l : List (Event × Mark)) :
    (lineOutput getValue (marked Mark.wanted l)).length ≤ (lineOutput getValue (marked Mark.visible l)).length := by
  have hsub := wanted_sublist getValue l
  rw [lineOutput, lineOutput, any_isTag_marked, any_isTag_marked]
  split
  next hw =>
    rw [if_pos]
    · exact hsub.length_le
    · rw [Bool.or_eq_true] at hw ⊢
      refine hw.imp_right fun h => ?_
      obtain ⟨c, hc, hblank⟩ := any_eq_true.1 h
      exact any_eq_true.2 ⟨c, hsub.subset hc, hblank⟩
  next => exact Nat.zero_le _

theorem lineOutput_eq_iff (l : List (Event × Mark)) :
    lineOutput getValue (marked Mark.wanted l) = lineOutput getValue (marked Mark.visible l) ↔
      LeftAlone getValue l := by
  have hsub := wanted_sublist getValue l
  have hmono (hw : (lineText getValue (marked Mark.wanted l)).any (· ∉ Config.blanks) = true) :
      (lineText getValue (marked Mark.visible l)).any (· ∉ Config.blanks) = true := by
    obtain ⟨c, hc, hblank⟩ := any_eq_true.1 hw
    exact any_eq_true.2 ⟨c, hsub.subset hc, hblank⟩
  rw [LeftAlone, ← wanted_eq_iff, ← visible_blank_iff, lineOutput, lineOutput, any_isTag_marked, any_isTag_marked]
  cases htag : l.any (·.1.isTag) with
  | false => simp
  | true =>
    cases hv : (lineText getValue (marked Mark.visible l)).any (· ∉ Config.blanks) with
    | false =>
      -- the line is left out, with strays and without
      have hw := Bool.eq_false_iff.2 fun h => Bool.eq_false_iff.1 hv (hmono h)
      simp only [hw, Bool.not_true, Bool.or_false, Bool.false_eq_true, if_false, true_and, or_true]
    | true =>
      cases hw : (lineText getValue (marked Mark.wanted l)).any (· ∉ Config.blanks) with
      | true => simp
      | false =>
        -- strays alone put the line out
        simp only [Bool.not_true, Bool.or_false, Bool.or_true, Bool.false_eq_true, if_false, if_true, and_false,
          or_false, Bool.true_eq_false]
        constructor
        · intro h
          rw [← h] at hv
          cases hv
        · intro h
          rw [h, hv] at hw
          cases hw

end Lines

/-! ## The conditionals of a template -/

/-- **`Print` shows the first valid branch of each conditional and nothing else exactly when, wherever a branch comes to be
asked that should not be, all it puts out is nothing, or blanks on lines of tags that are left out.** -/
theorem prints_chosen_iff {T : Nodes} (hT : T.LoopFree) (hevents : T.events = events 0 sText) :
    tmpl.Prints sText vStart true
        (T.output (tmpl.getValue (cursors vStart)) (tmpl.validIf (cursors vStart))) vStart ↔
      ∀ l ∈ markLines [] (T.marks (tmpl.validIf (cursors vStart))), LeftAlone (tmpl.getValue (cursors vStart)) l := by
  have hprints : tmpl.Prints sText vStart true _ vStart := prints_visible hT hevents
  have houtput : tmpl.Prints sText vStart true
      (T.output (tmpl.getValue (cursors vStart)) (tmpl.validIf (cursors vStart))) vStart ↔
      T.output (tmpl.getValue (cursors vStart)) (tmpl.validIf (cursors vStart)) =
        (markLines [] (marked Mark.visible (T.marks (tmpl.validIf (cursors vStart))))).flatMap
          (lineOutput (tmpl.getValue (cursors vStart))) := by
    refine ⟨fun h => (h.unique hprints).2.1, fun h => ?_⟩
    rw [h]
    exact hprints
  have hlines (p : Mark → Bool) (ms : List (Event × Mark)) :
      markLines [] (marked p ms) = (markLines [] ms).map (marked p) := markLines_map p [] ms
  rw [houtput, Nodes.output, ← marks_chosen, hlines, hlines, flatMap_map, flatMap_map,
    flatMap_eq_iff wanted_length_le]
  exact forall₂_congr fun l _ => lineOutput_eq_iff l

end Print

/-- a template without loops whose variables `names` are 1 and asked for by their names -/
def withVars (names : List CString) : CTemplate Unit where
  mvLoops _ _ := none
  mvLoops_ne := by simp
  getValue _ sArgs := if sArgs ∈ names then lit "1" else []
  validIf _ sArgs := decide (sArgs ∈ names)

/-- a line with one conditional -/
def plainText : CString := lit "<? IF a ?>x<? ELSE IF b ?>y<? ELSE ?>z<? ENDIF ?>\n"

def plainNodes : Nodes :=
  .chain ⟨lit "IF a", 10, [], by decide⟩ (.byte (ch 'x') .nil)
    (.cons ⟨lit "ELSE IF b", 26, [], by decide⟩ (.byte (ch 'y') .nil)
      (.cons ⟨lit "ELSE", 37, [], by decide⟩ (.byte (ch 'z') .nil) .nil))
    ⟨lit "ENDIF", 49, lit "\n", by decide⟩ (.byte (ch '\n') (.eol .nil))

theorem prints_plain : (withVars [lit "b"]).Prints plainText [] true (lit "y\n") [] :=
  (prints_chosen_iff (T := plainNodes) (by simp [plainNodes, Nodes.LoopFree, Branches.LoopFree]) (by decide)).2
    (by decide)

/-- a conditional in the first branch of another one -/
def nestedText : CString :=
  lit "<? IF a ?><? IF b ?>x<? ENDIF ?><? ELSE IF c ?>y<? ELSE ?>z<? ENDIF ?>\n"

def nestedNodes : Nodes :=
  .chain ⟨lit "IF a", 10, [], by decide⟩
    (.chain ⟨lit "IF b", 20, [], by decide⟩ (.byte (ch 'x') .nil) .nil ⟨lit "ENDIF", 32, [], by decide⟩ .nil)
    (.cons ⟨lit "ELSE IF c", 47, [], by decide⟩ (.byte (ch 'y') .nil)
      (.cons ⟨lit "ELSE", 58, [], by decide⟩ (.byte (ch 'z') .nil) .nil))
    ⟨lit "ENDIF", 70, lit "\n", by decide⟩ (.byte (ch '\n') (.eol .nil))

/-- with `a` set alone, nothing should come out but the line end is left out too; `z` does -/
theorem prints_nested :
    nestedNodes.LoopFree ∧ nestedNodes.events = events 0 nestedText ∧
      nestedNodes.output ((withVars [lit "a"]).getValue []) ((withVars [lit "a"]).validIf []) = [] ∧
      ¬ (withVars [lit "a"]).Prints nestedText [] true [] [] := by
  have hfree : nestedNodes.LoopFree := by simp [nestedNodes, Nodes.LoopFree, Branches.LoopFree]
  have hevents : nestedNodes.events = events 0 nestedText := by decide
  refine ⟨hfree, hevents, by decide, fun h => ?_⟩
  have hprints : (withVars [lit "a"]).Prints nestedText [] true _ [] := prints_visible hfree hevents
  exact absurd (h.unique hprints).2.1 (by decide)

end ZNC.Template
