/-
The two families of `CBuffer`'s entry points: `AddLine`, `UpdateLine` and `UpdateExactLine` of `src/Buffer.cpp`, which take a
message or the text of one.

The core hands messages in, modules hand texts in. The overloads for texts build a message and call the overload for messages.
`UpdateExactLine(sFormat, sText)` builds it with `CMessage(sFormat, sText)`, which is the constructor from a nick and a command.
The sizes that are returned are in `BufferBound`.

Results:
- `ofLine_eq_senderMessage_iff`: the texts whose message is that of the wrong constructor;
- `addText_agrees`, `updateText_agrees`: the overloads for texts of `AddLine` and `UpdateLine` do what those for messages do;
- `overloads_agree_iff`: when all three pairs agree.
-/
import ZNC.Buffer

namespace ZNC

open CString Words List Option

/-! ## Messages -/

def CMessage.equals (m other : CMessage) : Bool :=
  m.nick.nickEquals other.nick.sNick && m.sCommand.equals other.sCommand && m.vsParams = other.vsParams

theorem CMessage.equals_refl (m : CMessage) : m.equals m = true := by simp [equals, CNick.nickEquals]

namespace CBuffer

/-- the loop of `UpdateLine`: the lines with the first one of the command replaced, if there is one -/
def updateLoop (sCommand : CString) (line : CBufLine) : List CBufLine → Option (List CBufLine)
  | [] => none
  | l :: ls =>
    if l.message.sCommand.equals sCommand then some (line :: ls) else (updateLoop sCommand line ls).map (l :: ·)

def updateLine (b : CBuffer) (sCommand : CString) (format : CMessage) (sText : CString) : CBuffer :=
  match updateLoop sCommand ⟨format, sText⟩ b.lines with
  | some lines => { b with lines := lines }
  | none => b.addLine format sText

/-- the loop of `UpdateExactLine`: one of the lines equals the message -/
def holds (b : CBuffer) (format : CMessage) : Bool := b.lines.any fun l => l.message.equals format

def updateExactLine (b : CBuffer) (format : CMessage) (sText : CString) : CBuffer :=
  if b.holds format then b else b.addLine format sText

/-! ## The overloads for texts -/

/-- `AddLine(sFormat, sText, ts, mssTags)` -/
def addText (utils : CUtils) (b : CBuffer) (sFormat sText : CString) (ts : Option timeval) (mssTags : MCString) :
    Option CBuffer :=
  (CMessage.ofLine utils sFormat).map fun message =>
    let message := match ts with
      | some ts => { message with time := ts }
      | none => message
    b.addLine { message with mssTags := mssTags } sText

/-- `UpdateLine(sMatch, sFormat, sText)` -/
def updateText (utils : CUtils) (b : CBuffer) (sMatch sFormat sText : CString) : Option CBuffer :=
  (CMessage.ofLine utils sMatch).bind fun messageMatch =>
    (CMessage.ofLine utils sFormat).map fun message => b.updateLine messageMatch.sCommand message sText

/-- `CMessage(sFormat, sText)`: no overload takes two texts, and the first one becomes a `CNick` -/
def senderMessage (utils : CUtils) (sFormat sText : CString) : CMessage :=
  CMessage.ofParts utils (CNick.empty.parse sFormat) sText [] .empty

/-- a line without parameters, from the nick of `CNick(sFormat)` and with the text as its command -/
def holdsSender (b : CBuffer) (sFormat sText : CString) : Bool :=
  b.lines.any fun l => l.message.nick.nickEquals (CNick.empty.parse sFormat).sNick && l.message.sCommand.equals sText &&
    l.message.vsParams = []

theorem holds_senderMessage (utils : CUtils) (b : CBuffer) (sFormat sText : CString) :
    b.holds (senderMessage utils sFormat sText) = b.holdsSender sFormat sText := rfl

/-- `UpdateExactLine(sFormat, sText)` -/
def updateExactText (utils : CUtils) (b : CBuffer) (sFormat sText : CString) : Option CBuffer :=
  some (b.updateExactLine (senderMessage utils sFormat sText) [])

end CBuffer

/-! ## The message of the wrong constructor -/

namespace CMessage

theorem saveTag_ne_empty {mssTags m : MCString} {svTag : CString}
    (h : saveTag mssTags svTag = some m) : m ≠ .empty := by
  simp only [saveTag, map_eq_some_iff] at h
  obtain ⟨sValue, -, rfl⟩ := h
  intro hempty
  have hfind := congrArg (fun m : MCString => m.find ((cut (ch '=') svTag).getD (svTag, [])).1) hempty
  simp [OrdMap.find_insert] at hfind

theorem foldlM_saveTag_ne_empty {tags : List CString} {mssTags m : MCString} (h : tags.foldlM saveTag mssTags = some m)
    (hne : tags ≠ [] ∨ mssTags ≠ .empty) : m ≠ .empty := by
  induction tags generalizing mssTags with
  | nil =>
    rw [foldlM_nil, Option.pure_def, some_inj] at h
    exact h ▸ hne.resolve_left (fun h => h rfl)
  | cons t tags ih =>
    rw [foldlM_cons, bind_eq_bind, bind_eq_some_iff] at h
    obtain ⟨m', hm', h⟩ := h
    exact ih h (.inr (saveTag_ne_empty hm'))

theorem parseTags_eq_empty {svTags : Option CString} (h : parseTags svTags = some .empty) : svTags = none := by
  cases svTags with
  | none => rfl
  | some svTags => exact absurd rfl (foldlM_saveTag_ne_empty h (.inl (splitOn_ne_nil _ _)))

theorem takePart_eq_none {c : UInt8} {s : CString} (h : (takePart c s).1 = none) :
    s.head? ≠ some c ∧ (takePart c s).2 = s := by
  unfold takePart at h ⊢
  split_ifs at h ⊢ with hc
  exact ⟨hc, rfl⟩

theorem parseParams_eq_nil {s : CString} (h : (parseParams s).1 = []) : s = [] := by
  cases s with
  | nil => rfl
  | cons c l =>
    rw [parseParams] at h
    split_ifs at h

end CMessage

namespace CNick

theorem mask_cases (s : CString) : ch '!' ∉ s ∨ (∃ w r, s = w ++ ch '!' :: r ∧ ch '!' ∉ w ∧ ch '@' ∉ r) ∨
    ∃ w u r, s = w ++ ch '!' :: (u ++ ch '@' :: r) ∧ ch '!' ∉ w ∧ ch '@' ∉ u := by
  cases hs : cut (ch '!') s with
  | none => exact .inl (cut_eq_none hs)
  | some wr =>
    obtain ⟨rfl, hw⟩ := cut_eq_some hs
    cases hr : cut (ch '@') wr.2 with
    | none => exact .inr (.inl ⟨wr.1, wr.2, rfl, hw, cut_eq_none hr⟩)
    | some ur =>
      obtain ⟨hur, hu⟩ := cut_eq_some hr
      exact .inr (.inr ⟨wr.1, ur.1, ur.2, by rw [hur], hw, hu⟩)

theorem append_eq_chompColon_iff {p sp : CString} : p ++ sp = chompColon p ↔ sp = [] ∧ p.head? ≠ some (ch ':') := by
  unfold chompColon
  split_ifs with h
  · simp only [h, ne_eq, not_true_eq_false, and_false, iff_false]
    intro heq
    have hlen := congrArg List.length heq
    have hpos : 0 < p.length := length_pos_of_ne_nil (by rintro rfl; cases h)
    rw [length_append, length_drop] at hlen
    omega
  · simp [h]

theorem eq_chompColon_iff {p : CString} : p = chompColon p ↔ p.head? ≠ some (ch ':') := by
  have h := @append_eq_chompColon_iff p []
  rwa [append_nil, eq_self, true_and] at h

theorem head?_append_bang {w : CString} (r : CString) :
    (w ++ ch '!' :: r).head? ≠ some (ch ':') ↔ w.head? ≠ some (ch ':') := by
  cases w with
  | nil =>
    have hne : some (ch '!') ≠ some (ch ':') := by decide
    exact iff_of_true hne (some_ne_none _).symm
  | cons c w => exact Iff.rfl

/-- **A mask behind a colon, with further text behind it,** is read as the mask itself only if there is no such text and no
second colon. -/
theorem parse_colon_iff {p sp : CString} (hbang : ch '!' ∉ sp) (hat : ch '@' ∉ sp) :
    empty.parse (ch ':' :: (p ++ sp)) = empty.parse p ↔ sp = [] ∧ p.head? ≠ some (ch ':') := by
  have hcolon : ∀ w : CString, ch '!' ∉ w → ch '!' ∉ ch ':' :: w := by
    intro w hw
    exact not_mem_cons_of_ne_of_not_mem (by decide) hw
  have hchomp : ∀ w : CString, chompColon (ch ':' :: w) = w := fun w => rfl
  rcases mask_cases p with hp | ⟨w, r, rfl, hw, hr⟩ | ⟨w, u, r, rfl, hw, hu⟩
  · have hall : ch '!' ∉ p ++ sp := fun h => (mem_append.1 h).elim hp hbang
    rw [parse_nick _ (cons_ne_nil _ _) (hcolon _ hall), hchomp, ← append_eq_chompColon_iff]
    by_cases hnil : p = []
    · subst hnil
      simp [empty, parse, CNick.ext_iff, chompColon]
    · rw [parse_nick _ hnil hp]
      simp [CNick.ext_iff]
  · have hshape : ch ':' :: (w ++ ch '!' :: r ++ sp) = (ch ':' :: w) ++ ch '!' :: (r ++ sp) := by simp
    have hall : ch '@' ∉ r ++ sp := fun h => (mem_append.1 h).elim hr hat
    rw [hshape, parse_user _ (hcolon _ hw) hall, parse_user _ hw hr, hchomp, head?_append_bang, ← eq_chompColon_iff]
    simp [CNick.ext_iff, and_comm]
  · have hshape : ch ':' :: (w ++ ch '!' :: (u ++ ch '@' :: r) ++ sp) =
        (ch ':' :: w) ++ ch '!' :: (u ++ ch '@' :: (r ++ sp)) := by simp
    rw [hshape, parse_full _ (hcolon _ hw) hu, parse_full _ hw hu, hchomp, head?_append_bang, ← eq_chompColon_iff]
    simp [CNick.ext_iff, and_comm]

end CNick

/-! ## Texts that both constructors read alike -/

/-- nothing, or a colon and one word that has no colon in front -/
def BareSender (s : CString) : Prop :=
  s = [] ∨ (s.head? = some (ch ':') ∧ ch ' ' ∉ s ∧ (s.drop 1).head? ≠ some (ch ':'))

instance (s : CString) : Decidable (BareSender s) := inferInstanceAs (Decidable (_ ∨ (_ ∧ _ ∧ _)))

namespace CMessage

theorem bare_line {s : CString} (htags : parseTags (takePart (ch '@') s).1 = some .empty)
    (hcmd : (commandPart s).1 = [])
    (hparams : (parseParams (commandPart s).2).1 = []) :
    ((∀ c ∈ s, c = ch ' ') ∧ prefixOf s = none) ∨
      ∃ p sp, s = ch ':' :: (p ++ sp) ∧ ch ' ' ∉ p ∧ (∀ c ∈ sp, c = ch ' ') ∧ prefixOf s = some p := by
  obtain ⟨-, hrest⟩ := takePart_eq_none (parseTags_eq_empty htags)
  have hblank : ∀ t : CString, nextWord t = ([], []) → ∀ c ∈ t, c = ch ' ' := by
    intro t ht c hc
    obtain ⟨hword, hskip⟩ := Prod.mk.inj ht
    have hdrop : t.dropWhile (· ≠ ch ' ') = t := by
      have happend := takeWhile_append_dropWhile (p := (· ≠ ch ' ')) (l := t)
      rwa [hword, nil_append] at happend
    rw [hdrop] at hskip
    exact of_decide_eq_true (dropWhile_eq_nil_iff.1 hskip c hc)
  have hcommand : commandPart s = ([], []) := Prod.ext hcmd (parseParams_eq_nil hparams)
  unfold commandPart at hcommand
  unfold prefixOf
  rw [hrest] at hcommand ⊢
  by_cases hcolon : s.head? = some (ch ':')
  · right
    obtain ⟨t, rfl⟩ : ∃ t, s = ch ':' :: t := ⟨s.tail, (cons_head?_tail hcolon).symm⟩
    have hne : ch ':' ≠ ch ' ' := by decide
    have hword : nextWord (ch ':' :: t) =
        (ch ':' :: t.takeWhile (· ≠ ch ' '), (t.dropWhile (· ≠ ch ' ')).dropWhile (· = ch ' ')) := by
      simp [nextWord, word, hne]
    rw [takePart, if_pos hcolon, hword] at hcommand ⊢
    refine ⟨t.takeWhile (· ≠ ch ' '), t.dropWhile (· ≠ ch ' '), by rw [takeWhile_append_dropWhile], ?_, ?_, rfl⟩
    · intro hmem
      have hspace := mem_takeWhile_imp hmem
      exact absurd rfl (of_decide_eq_true hspace)
    · intro c hc
      rw [← takeWhile_append_dropWhile (p := (· = ch ' ')) (l := t.dropWhile (· ≠ ch ' '))] at hc
      rcases mem_append.1 hc with hc | hc
      · have hspace := mem_takeWhile_imp hc
        exact of_decide_eq_true hspace
      · exact hblank _ hcommand c hc
  · left
    rw [takePart, if_neg hcolon] at hcommand ⊢
    exact ⟨hblank s hcommand, rfl⟩

theorem ofLine_of_bare (utils : CUtils) {s : CString} (htags : (takePart (ch '@') s).1 = none)
    (hcommand : commandPart s = ([], [])) (hnick : parsedNick .empty (prefixOf s) = CNick.empty.parse s) :
    ofLine utils s = some (CBuffer.senderMessage utils s []) := by
  have hparams : parseParams [] = ([], false) := by rw [parseParams]
  have htype : typeOf [] (([] : VCString).getD 1 []) = (blank utils).eType := by
    have hunknown : typeOf [] [] = .Unknown := by decide
    exact hunknown
  rw [ofLine, parse_eq, htags, hcommand, hparams, htype]
  change some (initTime utils { blank utils with nick := parsedNick .empty (prefixOf s) }) = _
  rw [hnick]
  rfl

theorem ofLine_eq_senderMessage_iff (utils : CUtils) (s : CString) :
    ofLine utils s = some (CBuffer.senderMessage utils s []) ↔ BareSender s := by
  constructor
  · intro h
    rw [ofLine, parse_eq, Option.map_map, map_eq_some_iff] at h
    obtain ⟨mssTags, htags, h⟩ := h
    obtain ⟨hnick, hcmd, hparams, hempty, -, -, -⟩ := CMessage.ext_iff.1 h
    change mssTags = .empty at hempty
    rw [hempty] at htags
    change parsedNick CNick.empty (prefixOf s) = CNick.empty.parse s at hnick
    rcases bare_line htags hcmd hparams with ⟨hsp, hpart⟩ | ⟨p, sp, rfl, hp, hsp, hpart⟩
    · left
      rw [hpart] at hnick
      have hbang : ch '!' ∉ s := fun hmem => absurd (hsp _ hmem) (by decide)
      by_contra hne
      rw [CNick.parse_nick _ hne hbang] at hnick
      obtain ⟨c, t, rfl⟩ := exists_cons_of_ne_nil hne
      have hc : c = ch ' ' := hsp c mem_cons_self
      subst hc
      have hhead : (ch ' ' :: t).head? ≠ some (ch ':') := by simp only [head?_cons]; decide
      rw [CNick.chompColon_eq_self hhead] at hnick
      exact absurd (CNick.ext_iff.1 hnick).1.symm (cons_ne_nil _ _)
    · right
      have hbang : ch '!' ∉ sp := fun hmem => absurd (hsp _ hmem) (by decide)
      have hat : ch '@' ∉ sp := fun hmem => absurd (hsp _ hmem) (by decide)
      rw [hpart] at hnick
      obtain ⟨rfl, hhead⟩ := (CNick.parse_colon_iff hbang hat).1 hnick.symm
      rw [append_nil]
      exact ⟨rfl, not_mem_cons_of_ne_of_not_mem (by decide) hp, hhead⟩
  · rintro (rfl | ⟨hcolon, hsp, hhead⟩)
    · exact ofLine_of_bare utils rfl rfl rfl
    · obtain ⟨t, rfl⟩ : ∃ t, s = ch ':' :: t := ⟨s.tail, (cons_head?_tail hcolon).symm⟩
      have hnick : CNick.empty.parse (ch ':' :: t) = CNick.empty.parse t := by
        have h := (@CNick.parse_colon_iff t [] not_mem_nil not_mem_nil).2 ⟨rfl, hhead⟩
        rwa [append_nil] at h
      have hword : nextWord (ch ':' :: t) = (ch ':' :: t, []) := word_of_not_mem hsp
      have hat : (ch ':' :: t).head? ≠ some (ch '@') := by simp only [head?_cons]; decide
      have htake : takePart (ch '@') (ch ':' :: t) = (none, ch ':' :: t) := if_neg hat
      have hpart : takePart (ch ':') (ch ':' :: t) = (some t, []) := by rw [takePart, if_pos hcolon, hword]; rfl
      refine ofLine_of_bare utils (by rw [htake]) ?_ ?_
      · rw [commandPart, htake, hpart]
        rfl
      · rw [prefixOf, htake, hpart]
        exact hnick.symm

end CMessage

/-! ## The overloads side by side -/

namespace CBuffer

/-- a message with the time and the tags that `AddLine` is given -/
def stamped (message : CMessage) (ts : Option timeval) (mssTags : MCString) : CMessage :=
  { message with time := ts.getD message.time, mssTags := mssTags }

theorem addText_agrees (utils : CUtils) (b : CBuffer) (sFormat sText : CString) (ts : Option timeval)
    (mssTags : MCString) :
    b.addText utils sFormat sText ts mssTags =
      (CMessage.ofLine utils sFormat).map fun message => b.addLine (stamped message ts mssTags) sText := by
  cases ts with
  | none => rfl
  | some ts => rfl

theorem updateText_agrees (utils : CUtils) (b : CBuffer) (sMatch sFormat sText : CString) :
    b.updateText utils sMatch sFormat sText = (CMessage.ofLine utils sMatch).bind fun messageMatch =>
      (CMessage.ofLine utils sFormat).map fun message => b.updateLine messageMatch.sCommand message sText := rfl

theorem addLine_inj {b : CBuffer} (h0 : b.uLineCount ≠ 0) {m1 m2 : CMessage} {t1 t2 : CString}
    (h : b.addLine m1 t1 = b.addLine m2 t2) : m1 = m2 ∧ t1 = t2 := by
  rw [addLine, addLine, if_neg h0, if_neg h0] at h
  have hlines := congrArg lines h
  have hlast := append_cancel_left hlines
  exact CBufLine.mk.inj (singleton_inj.1 hlast)

theorem addLine_ne_self {b : CBuffer} (h0 : b.uLineCount ≠ 0) {m : CMessage} (hm : b.holds m = false)
    (sText : CString) :
    b.addLine m sText ≠ b := by
  intro h
  have hmem := mem_addLine h0 m sText
  rw [h] at hmem
  have hholds : b.holds m = true := any_eq_true.2 ⟨_, hmem, m.equals_refl⟩
  rw [hm] at hholds
  exact Bool.false_ne_true hholds

theorem updateExactLine_eq_iff (b : CBuffer) (m1 m2 : CMessage) (t1 t2 : CString) :
    b.updateExactLine m1 t1 = b.updateExactLine m2 t2 ↔
      b.uLineCount = 0 ∨ (b.holds m1 ∧ b.holds m2) ∨ (b.holds m1 = false ∧ b.holds m2 = false ∧ m1 = m2 ∧ t1 = t2) := by
  unfold updateExactLine
  by_cases h0 : b.uLineCount = 0
  · have hadd : ∀ m t, b.addLine m t = b := fun m t => if_pos h0
    simp [h0, hadd]
  · cases h1 : b.holds m1 with
    | true =>
      cases h2 : b.holds m2 with
      | true => simp
      | false => simp [h0, (addLine_ne_self h0 h2 t2).symm]
    | false =>
      cases h2 : b.holds m2 with
      | true => simp [h0, addLine_ne_self h0 h1 t1]
      | false =>
        simp only [h0, Bool.false_eq_true, if_false, false_and, false_or, true_and]
        exact ⟨addLine_inj h0, fun h => by rw [h.1, h.2]⟩

theorem updateExactText_iff (utils : CUtils) (b : CBuffer) (sFormat sText : CString) :
    b.updateExactText utils sFormat sText =
        (CMessage.ofLine utils sFormat).map (fun message => b.updateExactLine message sText) ↔
      ∃ message, CMessage.ofLine utils sFormat = some message ∧
        (b.uLineCount = 0 ∨ (b.holdsSender sFormat sText ∧ b.holds message) ∨
          (b.holdsSender sFormat sText = false ∧ b.holds message = false ∧ BareSender sFormat ∧ sText = [])) := by
  unfold updateExactText
  rw [eq_comm, map_eq_some_iff]
  refine exists_congr fun message => and_congr_right fun hmessage => ?_
  rw [eq_comm, updateExactLine_eq_iff, holds_senderMessage]
  refine or_congr_right (or_congr_right (and_congr_right fun _ => and_congr_right fun _ => ?_))
  constructor
  · rintro ⟨hsame, rfl⟩
    exact ⟨(CMessage.ofLine_eq_senderMessage_iff utils sFormat).1 (hmessage.trans (congrArg some hsame.symm)), rfl⟩
  · rintro ⟨hbare, rfl⟩
    have hsender := (CMessage.ofLine_eq_senderMessage_iff utils sFormat).2 hbare
    exact ⟨some_inj.1 (hsender.symm.trans hmessage), rfl⟩

/-- **The overloads for texts and for messages.** `AddLine` and `UpdateLine` always agree. `UpdateExactLine` agrees where the
text is read to its end and the buffer takes no lines, holds the messages of both, or holds neither and both are the same. -/
theorem overloads_agree_iff (utils : CUtils) (b : CBuffer) (sFormat sText : CString) :
    ((∀ ts mssTags, b.addText utils sFormat sText ts mssTags =
          (CMessage.ofLine utils sFormat).map fun message => b.addLine (stamped message ts mssTags) sText) ∧
        (∀ sMatch, b.updateText utils sMatch sFormat sText = (CMessage.ofLine utils sMatch).bind fun messageMatch =>
          (CMessage.ofLine utils sFormat).map fun message => b.updateLine messageMatch.sCommand message sText) ∧
        b.updateExactText utils sFormat sText =
          (CMessage.ofLine utils sFormat).map fun message => b.updateExactLine message sText) ↔
      ∃ message, CMessage.ofLine utils sFormat = some message ∧
        (b.uLineCount = 0 ∨ (b.holdsSender sFormat sText ∧ b.holds message) ∨
          (b.holdsSender sFormat sText = false ∧ b.holds message = false ∧ BareSender sFormat ∧ sText = [])) := by
  rw [← updateExactText_iff]
  constructor
  · rintro ⟨-, -, hexact⟩
    exact hexact
  · intro hexact
    exact ⟨addText_agrees utils b sFormat sText, fun sMatch => updateText_agrees utils b sMatch sFormat sText, hexact⟩

/-- a buffer with the line `:s 005 n A=1` -/
def oneLine : CBuffer := ⟨[⟨⟨⟨lit "s", [], []⟩, lit "005", [lit "n", lit "A=1"], .empty, ⟨0, 0⟩,
    .Numeric, false⟩, []⟩], 10⟩

/-- the line that a buffer holds is handed in once more: a message without a command is added -/
theorem overloads_disagree :
    ¬ ∀ (utils : CUtils) (b : CBuffer) (sFormat sText : CString),
      (∀ ts mssTags, b.addText utils sFormat sText ts mssTags =
          (CMessage.ofLine utils sFormat).map fun message => b.addLine (stamped message ts mssTags) sText) ∧
        (∀ sMatch, b.updateText utils sMatch sFormat sText = (CMessage.ofLine utils sMatch).bind fun messageMatch =>
          (CMessage.ofLine utils sFormat).map fun message => b.updateLine messageMatch.sCommand message sText) ∧
        b.updateExactText utils sFormat sText =
          (CMessage.ofLine utils sFormat).map fun message => b.updateExactLine message sText := by
  intro h
  have hexact := (h CMessage.stoppedClock oneLine (lit ":s 005 n A=1") []).2.2
  have hadded : oneLine.updateExactText CMessage.stoppedClock (lit ":s 005 n A=1") [] ≠
      (CMessage.ofLine CMessage.stoppedClock (lit ":s 005 n A=1")).map fun message =>
        oneLine.updateExactLine message [] := by
    decide +kernel
  exact hadded hexact

/-- the buffer is one that the overload for texts fills -/
example : (⟨[], 10⟩ : CBuffer).addText CMessage.stoppedClock (lit ":s 005 n A=1") [] none .empty = some oneLine := by
  decide +kernel

end CBuffer

end ZNC
