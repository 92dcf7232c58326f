/-
The type of a message, over the lives of `CMessage` objects.

`GetType()` returns a field that `InitType` fills in. A life is a constructor followed by any calls of `Parse`,
`SetCommand`, `SetParams` and `SetParam`; the setters of the parameters refresh the field only if it says that the text of
the message matters. A call that is undefined or does not return ends the life.

Results:
- `run_getType_iff`: at the end of a life the field is the type of the current command and parameters exactly unless the
  object came from the constructor with a nick, its command has a type, and nothing has called `InitType` since;
- `ofParts_getType`: a PRIVMSG from that constructor has the type Unknown.
-/
import ZNC.Message

namespace ZNC.CMessage

open Option

/-! ## Model -/

inductive Ctor where
  | nothing
  | line (sMessage : CString)
  | parts (nick : CNick) (sCommand : CString) (vsParams : VCString) (mssTags : MCString)

inductive Op where
  | parse (sMessage : CString)
  | setCommand (sCommand : CString)
  | setParams (vsParams : VCString)
  | setParam (uIdx : UInt32) (sParam : CString)

def construct (utils : CUtils) : Ctor → Option CMessage
  | .nothing => ofNothing utils
  | .line s => ofLine utils s
  | .parts n c p t => some (ofParts utils n c p t)

def step (m : CMessage) : Op → Option CMessage
  | .parse s => m.parse s
  | .setCommand c => some (m.setCommand c)
  | .setParams p => some (m.setParams p)
  | .setParam i p => m.setParam i p

def run (m : CMessage) (ops : List Op) : Option CMessage := ops.foldlM step m

/-- a life: what a constructor makes and the calls leave -/
def life (utils : CUtils) (c : Ctor) (ops : List Op) : Option CMessage := (construct utils c).bind fun m => run m ops

/-! ## Right and stale types -/

/-- what `InitType` finds for the message as it is -/
def currentType (m : CMessage) : EType := typeOf m.sCommand (m.getParam 1)

/-- the field was never filled in, though the command has a type -/
structure Stale (m : CMessage) : Prop where
  unknown : m.eType = .Unknown
  known : m.currentType ≠ .Unknown

theorem Stale.ne {m : CMessage} (h : m.Stale) : m.eType ≠ m.currentType := by
  rw [h.unknown]
  exact h.known.symm

/-- calls that run `InitType` whatever the type was -/
def Op.refreshes : Op → Bool
  | .parse _ => true
  | .setCommand _ => true
  | .setParams _ => false
  | .setParam _ _ => false

/-- the constructor with a nick, on a command that has a type -/
def Ctor.untyped : Ctor → Bool
  | .nothing => false
  | .line _ => false
  | .parts _ sCommand vsParams _ => typeOf sCommand (vsParams.getD 1 []) ≠ .Unknown

theorem typeOf_cases (sCommand : CString) :
    (∀ p, hasText (typeOf sCommand p) = true) ∨ (∀ p p', typeOf sCommand p = typeOf sCommand p') := by
  by_cases hnum : isNumeric sCommand = true
  · right
    intro p p'
    simp only [typeOf, hnum, if_true]
  · by_cases hpriv : sCommand.equals (lit "PRIVMSG") = true
    · left
      intro p
      simp only [typeOf, hnum, hpriv, if_true, Bool.false_eq_true, if_false]
      split_ifs <;> rfl
    · by_cases hnot : sCommand.equals (lit "NOTICE") = true
      · left
        intro p
        simp only [typeOf, hnum, hpriv, hnot, if_true, Bool.false_eq_true, if_false]
        split_ifs <;> rfl
      · right
        intro p p'
        simp only [typeOf, hnum, hpriv, hnot, Bool.false_eq_true, if_false]

theorem typeOf_unknown_iff (sCommand p p' : CString) :
    typeOf sCommand p = .Unknown ↔ typeOf sCommand p' = .Unknown := by
  have hno : ∀ q, hasText (typeOf sCommand q) = true → typeOf sCommand q ≠ .Unknown := by
    intro q hq h0
    rw [h0] at hq
    exact absurd hq (by decide)
  rcases typeOf_cases sCommand with h | h
  · exact ⟨fun h0 => absurd h0 (hno p (h p)), fun h0 => absurd h0 (hno p' (h p'))⟩
  · rw [h p p']

theorem typeOf_eq_of_not_hasText {sCommand p : CString} (h : hasText (typeOf sCommand p) = false) (p' : CString) :
    typeOf sCommand p' = typeOf sCommand p := by
  rcases typeOf_cases sCommand with hall | hconst
  · exact absurd (hall p) (by rw [h]; decide)
  · exact hconst p' p

/-! ## One call -/

theorem initType_eType (m : CMessage) : m.initType.eType = m.initType.currentType := rfl

theorem setParam_cases {m m' : CMessage} {uIdx : UInt32} {sParam : CString} (h : m.setParam uIdx sParam = some m') :
    m'.sCommand = m.sCommand ∧ (uIdx ≠ 1 → m'.getParam 1 = m.getParam 1) ∧
      m'.eType = if uIdx = 1 ∧ hasText m.eType = true then m'.currentType else m.eType := by
  unfold setParam at h
  simp only at h
  set v := if m.vsParams.length ≤ uIdx.toNat then resize m.vsParams (uIdx + 1).toNat else m.vsParams with hv
  split_ifs at h with hlen htext
  · rw [some_inj] at h
    subst h
    obtain ⟨h1, h2⟩ := (Bool.and_eq_true _ _).mp htext
    have h1 := of_decide_eq_true h1
    exact ⟨rfl, fun hne => absurd h1 hne, by rw [if_pos ⟨h1, h2⟩]; rfl⟩
  · rw [some_inj] at h
    subst h
    refine ⟨rfl, fun hne => ?_, (if_neg fun hb => htext ?_).symm⟩
    · have hidx : uIdx.toNat ≠ 1 := fun h1 => hne (UInt32.toNat_inj.1 h1)
      have hset : (v.set uIdx.toNat sParam).getD 1 [] = v.getD 1 [] := by
        rw [List.getD_eq_getElem?_getD, List.getElem?_set_ne hidx, List.getD_eq_getElem?_getD]
      have hres : v.getD 1 [] = m.vsParams.getD 1 [] := by
        rw [hv]
        split_ifs with hgrow
        · -- the write stays inside the new vector, so the vector has grown
          rw [hv, if_pos hgrow, length_resize] at hlen
          exact getD_resize (by omega) 1
        · rfl
      exact hset.trans hres
    · rw [hb.1, hb.2]; rfl

theorem parse_eType {m m' : CMessage} {s : CString} (h : m.parse s = some m') : m'.eType = m'.currentType := by
  rw [parse_eq, map_eq_some_iff] at h
  obtain ⟨mssTags, -, rfl⟩ := h
  rfl

/-- **One call on a right field** leaves a right field. -/
theorem step_typed (m m' : CMessage) (o : Op) (h : m.eType = m.currentType) (hs : m.step o = some m') :
    m'.eType = m'.currentType := by
  cases o with
  | parse s => exact parse_eType hs
  | setCommand c =>
    rw [step, some_inj] at hs
    subst hs
    exact initType_eType _
  | setParams p =>
    rw [step, some_inj] at hs
    subst hs
    unfold setParams
    simp only
    split_ifs with ht
    · exact initType_eType _
    · rw [h, Bool.not_eq_true] at ht
      exact h.trans (typeOf_eq_of_not_hasText ht _).symm
  | setParam i p =>
    obtain ⟨hc, hp, ht⟩ := setParam_cases hs
    rw [ht]
    split_ifs with hno
    · rfl
    · rw [h, currentType, currentType, hc]
      by_cases hi : i = 1
      · have hnt : hasText m.currentType = false := by
          rw [← h, ← Bool.not_eq_true]
          exact fun hb => hno ⟨hi, hb⟩
        exact (typeOf_eq_of_not_hasText hnt _).symm
      · rw [hp hi]

theorem step_refreshes (m m' : CMessage) (o : Op) (ho : o.refreshes = true) (hs : m.step o = some m') :
    m'.eType = m'.currentType := by
  cases o with
  | parse s => exact parse_eType hs
  | setCommand c =>
    rw [step, some_inj] at hs
    subst hs
    exact initType_eType _
  | setParams p => exact absurd ho Bool.false_ne_true
  | setParam i p => exact absurd ho Bool.false_ne_true

/-- **One call on a stale field** that does not run `InitType` leaves it stale. -/
theorem step_stale (m m' : CMessage) (o : Op) (ho : o.refreshes = false) (h : m.Stale) (hs : m.step o = some m') :
    m'.Stale := by
  have hno : hasText m.eType = false := by rw [h.unknown]; rfl
  cases o with
  | parse s => exact absurd ho.symm Bool.false_ne_true
  | setCommand c => exact absurd ho.symm Bool.false_ne_true
  | setParams p =>
    rw [step, some_inj] at hs
    subst hs
    unfold setParams
    simp only [hno, Bool.false_eq_true, if_false]
    exact ⟨h.unknown, fun h0 => h.known ((typeOf_unknown_iff _ _ _).1 h0)⟩
  | setParam i p =>
    obtain ⟨hc, -, ht⟩ := setParam_cases hs
    rw [if_neg (by rw [hno]; exact fun hb => Bool.false_ne_true hb.2)] at ht
    refine ⟨ht.trans h.unknown, fun h0 => h.known ?_⟩
    rw [currentType, hc] at h0
    exact (typeOf_unknown_iff _ _ _).1 h0

/-! ## Runs of calls -/

theorem run_typed (m m' : CMessage) (ops : List Op) (h : m.eType = m.currentType) (hr : m.run ops = some m') :
    m'.eType = m'.currentType := by
  induction ops generalizing m with
  | nil =>
    obtain rfl := some_inj.1 hr
    exact h
  | cons o ops ih =>
    rw [run, List.foldlM_cons] at hr
    obtain ⟨m1, h1, hr⟩ := bind_eq_some_iff.1 hr
    exact ih m1 (step_typed m m1 o h h1) hr

/-- **A run on a stale field** makes it right exactly if some call runs `InitType`. -/
theorem run_stale (m m' : CMessage) (ops : List Op) (h : m.Stale) (hr : m.run ops = some m') :
    m'.eType = m'.currentType ↔ ∃ o ∈ ops, o.refreshes = true := by
  induction ops generalizing m with
  | nil =>
    obtain rfl := some_inj.1 hr
    refine ⟨fun h0 => absurd h0 h.ne, fun ho => ?_⟩
    obtain ⟨o, ho, -⟩ := ho
    exact nomatch ho
  | cons o ops ih =>
    rw [run, List.foldlM_cons] at hr
    obtain ⟨m1, h1, hr⟩ := bind_eq_some_iff.1 hr
    cases ho : o.refreshes with
    | true => exact ⟨fun _ => ⟨o, List.mem_cons_self, ho⟩,
        fun _ => run_typed m1 m' ops (step_refreshes m m1 o ho h1) hr⟩
    | false =>
      rw [ih m1 (step_stale m m1 o ho h h1) hr]
      simp [ho]

/-! ## Lives -/

theorem ofLine_eType {utils : CUtils} {s : CString} {m : CMessage} (h : ofLine utils s = some m) :
    m.eType = m.currentType := by
  obtain ⟨m0, h0, rfl⟩ := map_eq_some_iff.1 h
  exact @parse_eType _ m0 _ h0

theorem construct_typed {utils : CUtils} {c : Ctor} {m : CMessage} (hc : c.untyped = false)
    (h : construct utils c = some m) : m.eType = m.currentType := by
  cases c with
  | nothing => exact @ofLine_eType utils [] m h
  | line s => exact ofLine_eType h
  | parts n sCommand p t =>
    obtain rfl := some_inj.1 h
    exact (of_not_not (of_decide_eq_false hc)).symm

theorem construct_stale {utils : CUtils} {c : Ctor} {m : CMessage} (hc : c.untyped = true)
    (h : construct utils c = some m) : m.Stale := by
  cases c with
  | nothing => exact absurd hc Bool.false_ne_true
  | line s => exact absurd hc Bool.false_ne_true
  | parts n sCommand p t =>
    obtain rfl := some_inj.1 h
    exact ⟨rfl, of_decide_eq_true hc⟩

/-- **The type at the end of a life** is the type of the current command and parameters, unless the object came from the
constructor with a nick, its command has a type, and neither `Parse` nor `SetCommand` was called. -/
theorem run_getType_iff (utils : CUtils) (c : Ctor) (ops : List Op) (m : CMessage) (h : life utils c ops = some m) :
    m.eType = m.currentType ↔ (c.untyped = true → ∃ o ∈ ops, o.refreshes = true) := by
  obtain ⟨m0, h0, hr⟩ := bind_eq_some_iff.1 h
  cases hc : c.untyped with
  | true =>
    rw [run_stale m0 m ops (construct_stale hc h0) hr]
    simp
  | false => exact ⟨fun _ h => absurd h Bool.false_ne_true, fun _ => run_typed m0 m ops (construct_typed hc h0) hr⟩

/-- a parsed PRIVMSG becomes an ACTION when its text does -/
theorem run_getType_action : ∃ m, life stoppedClock (.line (lit ":n!i@h PRIVMSG #c :hi"))
    [.setParam 1 (soh ++ lit "ACTION waves" ++ soh)] = some m ∧ m.eType = m.currentType ∧ m.eType = .Action := by
  have h : life stoppedClock (.line (lit ":n!i@h PRIVMSG #c :hi")) [.setParam 1 (soh ++ lit "ACTION waves" ++ soh)] =
      some ⟨⟨lit "n", lit "i", lit "h"⟩, lit "PRIVMSG", [lit "#c", soh ++ lit "ACTION waves" ++ soh], .empty, ⟨0, 0⟩,
        .Action, true⟩ := by decide +kernel
  exact ⟨_, h, (run_getType_iff _ _ _ _ h).2 (fun hc => absurd hc (by decide)), rfl⟩

/-- a PRIVMSG from the constructor with a nick has the type Unknown, not Text -/
theorem ofParts_getType :
    (ofParts stoppedClock ⟨lit "n", lit "i", lit "h"⟩ (lit "PRIVMSG") [lit "#c", lit "hi"] .empty).eType = .Unknown ∧
      (ofParts stoppedClock ⟨lit "n", lit "i", lit "h"⟩ (lit "PRIVMSG") [lit "#c", lit "hi"] .empty).currentType =
        .Text := by
  decide

end ZNC.CMessage
