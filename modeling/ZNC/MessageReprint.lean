/-
A line that is parsed and printed again (`src/Message.cpp`).

`Parse` cuts a line into the tags, the prefix, the command and the parameters, and leaves out runs of spaces; `ToString` puts one
space between them. So the text without the tags is never longer than the line, and has no bytes but those of the line and the marks.

Results:
- `toString_ofLine_within`: what is printed of a parsed line is within the line.
-/
import ZNC.MessageRoundTrip
import ZNC.BufferOverloads
import ZNC.Token

namespace ZNC

open List

namespace CMessage

open Words CString

/-- a text that is not longer than a line and has only its bytes and marks -/
structure Within (s l : CString) : Prop where
  length : s.length ≤ l.length
  bytes : ∀ c ∈ s, c ∈ l ∨ c ∈ lit " :!@"

variable {c : UInt8} (s : CString)

theorem Within.refl : Within s s := ⟨le_rfl, fun _ h => .inl h⟩

theorem Within.nil (l : CString) : Within [] l := ⟨Nat.zero_le _, fun _ h => absurd h (by simp)⟩

theorem mem_word {l : CString} (sep : UInt8) :
    (c ∈ (word sep l).1 → c ∈ l) ∧ (c ∈ (word sep l).2 → c ∈ l) :=
  ⟨fun h => (takeWhile_sublist _).subset h, fun h =>
    (dropWhile_sublist _).subset ((dropWhile_sublist _).subset h)⟩

/-! ## The prefix -/

theorem mem_chompColon {s : CString} (h : c ∈ CNick.chompColon s) : c ∈ s := by
  unfold CNick.chompColon at h
  split_ifs at h
  · exact mem_of_mem_drop h
  · exact h

theorem length_chompColon_le : (CNick.chompColon s).length ≤ s.length := by
  unfold CNick.chompColon
  split_ifs <;> simp

theorem mem_marked {m : UInt8} {s : CString} (h : c ∈ if s = [] then [] else m :: s) : c = m ∨ c ∈ s := by
  split_ifs at h
  · cases h
  · exact mem_cons.1 h

theorem length_marked_le (m : UInt8) (s : CString) : (if s = [] then [] else m :: s).length ≤ s.length + 1 := by
  split_ifs <;> simp

/-- **The mask of a parsed prefix** is within the prefix. -/
theorem getHostMask_within : Within (CNick.empty.parse s).getHostMask s := by
  have hmark : ch '!' ∈ lit " :!@" ∧ ch '@' ∈ lit " :!@" := by decide
  rcases CNick.mask_cases s with hbang | ⟨w, r, rfl, hw, hr⟩ | ⟨w, u, r, rfl, hw, hu⟩
  · rcases eq_or_ne s [] with rfl | hs
    · exact .refl []
    · rw [CNick.parse_nick _ hs hbang]
      refine ⟨?_, fun c hc => .inl (mem_chompColon ?_)⟩
      · simpa [CNick.getHostMask, CNick.empty] using length_chompColon_le s
      · simpa [CNick.getHostMask, CNick.empty] using hc
  · -- the user stands where the host belongs
    rw [CNick.parse_user _ hw hr]
    simp only [CNick.getHostMask, CNick.empty, if_true, append_nil]
    refine ⟨?_, fun c hc => ?_⟩
    · have hchomp := length_chompColon_le w
      have hhost := length_marked_le (ch '@') r
      simp only [length_append, length_cons]
      omega
    · rcases mem_append.1 hc with hc | hc
      · exact .inl (mem_append_left _ (mem_chompColon hc))
      · rcases mem_marked hc with rfl | hc
        · exact .inr hmark.2
        · exact .inl (by simp [hc])
  · rw [CNick.parse_full _ hw hu]
    simp only [CNick.getHostMask]
    refine ⟨?_, fun c hc => ?_⟩
    · have hchomp := length_chompColon_le w
      have huser := length_marked_le (ch '!') u
      have hhost := length_marked_le (ch '@') r
      simp only [length_append, length_cons]
      omega
    · rcases mem_append.1 hc with hc | hc
      · rcases mem_append.1 hc with hc | hc
        · exact .inl (mem_append_left _ (mem_chompColon hc))
        · rcases mem_marked hc with rfl | hc
          · exact .inr hmark.1
          · exact .inl (by simp [hc])
      · rcases mem_marked hc with rfl | hc
        · exact .inr hmark.2
        · exact .inl (by simp [hc])

/-! ## The parameters -/

/-- **The parameters of a text** that does not begin with a space are printed within the text. -/
theorem showParams_within (l : CString) (h : l.head? ≠ some (ch ' ')) :
    Within ((lit " ").join (showParams (parseParams l).2 (parseParams l).1)) l := by
  fun_induction parseParams l with
  | case1 => exact .nil []
  | case2 l =>
    have hone : (lit " ").join [ch ':' :: l] = ch ':' :: l := intercalate_singleton
    rw [showParams, Bool.true_or, if_pos rfl, hone]
    exact .refl _
  | case3 c l hc r ih =>
    set w := (nextWord (c :: l)).1 with hw
    set rest := (nextWord (c :: l)).2 with hrest
    have hspace : c ≠ ch ' ' := fun h0 => h (by rw [h0]; rfl)
    have hword : w = c :: l.takeWhile (· ≠ ch ' ') := by
      rw [hw, nextWord, word, takeWhile_cons_of_pos (by simpa using hspace)]
    have hhead : rest.head? ≠ some (ch ' ') := head_word (ch ' ') (c :: l)
    have hlen := length_word_le (ch ' ') (c :: l)
    have hplain : needsColon w = false := by
      have hmem : ch ' ' ∉ w := by
        rw [hw, nextWord, word]
        exact fun hm => by simpa using mem_takeWhile_imp hm
      rw [hword] at hmem ⊢
      simpa [needsColon, hc] using hmem
    cases hr : r.1 with
    | nil =>
      have hnil : rest = [] := parseParams_eq_nil hr
      have hcolon : r.2 = false := by
        change (parseParams rest).2 = false
        rw [hnil, parseParams]
      have hone : (lit " ").join [w] = w := intercalate_singleton
      rw [hcolon, showParams, hplain, Bool.or_false, if_neg Bool.false_ne_true, hone]
      exact ⟨by rw [hw, nextWord]; omega, fun b hb => .inl ((mem_word (ch ' ')).1 hb)⟩
    | cons q ps =>
      have hne : rest ≠ [] := by
        intro h0
        have hnil : r.1 = [] := by
          change (parseParams rest).1 = []
          rw [h0, parseParams]
        rw [hnil] at hr
        cases hr
      have hjoin : (lit " ").join (showParams r.2 (w :: q :: ps)) =
          w ++ ch ' ' :: (lit " ").join (showParams r.2 (q :: ps)) := by
        unfold join
        rw [showParams, intercalate_cons_of_ne_nil (showParams_ne_nil _ (cons_ne_nil q ps))]
        simp [lit, ch]
      have hlen' : w.length + rest.length + 1 ≤ (c :: l).length := length_word_add_one_le hne
      have hrest : Within ((lit " ").join (showParams r.2 r.1)) rest := ih hhead
      obtain ⟨ihlen, ihbytes⟩ := hrest
      rw [hr] at ihlen ihbytes
      rw [hjoin]
      refine ⟨?_, fun b hb => ?_⟩
      · rw [length_append, length_cons]
        omega
      · rcases mem_append.1 hb with hb | hb
        · exact .inl ((mem_word (ch ' ')).1 hb)
        · rcases mem_cons.1 hb with rfl | hb
          · exact .inr (by decide)
          · exact (ihbytes b hb).imp_left (mem_word (ch ' ')).2

/-! ## The line -/

def prefixText (nick : CNick) : CString := if nick.getHostMask ≠ [] then ch ':' :: nick.getHostMask else []

/-- the prefix and the command as they are printed -/
def headText (nick : CNick) (sCommand : CString) : CString :=
  if sCommand ≠ [] then appendPart (prefixText nick) sCommand else prefixText nick

theorem toString_excludeTags {m : CMessage} (h : m.vsParams.length < 2 ^ 32) :
    m.toString ExcludeTags = some
      (if m.vsParams = [] then headText m.nick m.sCommand
      else appendPart (headText m.nick m.sCommand) ((lit " ").join (showParams m.bColon m.vsParams))) := by
  have htags : ExcludeTags ≠ 0 := by decide
  have hpre : ExcludeTags &&& ExcludePrefix = 0 := by decide
  have happend : appendPart [] (ch ':' :: m.nick.getHostMask) = ch ':' :: m.nick.getHostMask := rfl
  rw [toString, if_neg (by simp [htags])]
  simp only [hpre, decide_true, Bool.true_and, happend, getParamsColon_eq m h, decide_eq_true_eq, Option.map_some,
    ite_not, headText, prefixText]
  split_ifs <;> rfl

theorem length_appendPart_le (t : CString) : (appendPart s t).length ≤ s.length + 1 + t.length := by
  unfold appendPart
  split_ifs
  · omega
  · simp only [length_append, length_cons]
    omega

theorem mem_appendPart {s t : CString} (h : c ∈ appendPart s t) : c ∈ s ∨ c = ch ' ' ∨ c ∈ t := by
  unfold appendPart at h
  split_ifs at h
  · exact .inr (.inr h)
  · simpa using h

theorem takePart_spec (hc : c ≠ ch ' ') (s : CString) :
    takePart c s = (none, s) ∨ ∃ p rest, takePart c s = (some p, rest) ∧
      p.length + 1 + rest.length ≤ s.length ∧ (rest ≠ [] → p.length + 1 + rest.length + 1 ≤ s.length) ∧
      (∀ b ∈ p, b ∈ s) ∧ ∀ b ∈ rest, b ∈ s := by
  unfold takePart
  by_cases hs : s.head? = some c
  · obtain ⟨l, rfl⟩ := head?_eq_some_iff.1 hs
    rw [if_pos hs]
    have hword : (nextWord (c :: l)).1 = c :: l.takeWhile (· ≠ ch ' ') := by
      rw [nextWord, word, takeWhile_cons_of_pos (by simpa using hc)]
    have hlen : (nextWord (c :: l)).1.length + (nextWord (c :: l)).2.length ≤ (c :: l).length := length_word_le _ _
    have hlen' : (nextWord (c :: l)).2 ≠ [] →
      (nextWord (c :: l)).1.length + (nextWord (c :: l)).2.length + 1 ≤ (c :: l).length :=
      length_word_add_one_le
    have hdrop : ((nextWord (c :: l)).1.drop 1).length + 1 = (nextWord (c :: l)).1.length := by
      rw [hword]
      simp
    refine .inr ⟨_, _, rfl, by omega, fun hne => ?_, fun b hb => (mem_word (ch ' ')).1 (mem_of_mem_drop hb),
      fun b hb => (mem_word (ch ' ')).2 hb⟩
    have hless := hlen' hne
    omega
  · exact .inl (if_neg hs)

theorem length_headText_le (nick : CNick) (sCommand : CString) :
    (headText nick sCommand).length ≤ (if nick.getHostMask = [] then 0 else nick.getHostMask.length + 1) +
      (if sCommand = [] then 0 else sCommand.length + if nick.getHostMask = [] then 0 else 1) := by
  unfold headText appendPart prefixText
  split_ifs <;> simp_all

theorem mem_headText {nick : CNick} {sCommand : CString} (h : c ∈ headText nick sCommand) :
    c ∈ nick.getHostMask ∨ c ∈ sCommand ∨ c = ch ' ' ∨ c = ch ':' := by
  have hpre : c ∈ prefixText nick → c ∈ nick.getHostMask ∨ c = ch ':' := by
    intro hc
    unfold prefixText at hc
    split_ifs at hc
    · exact (mem_cons.1 hc).symm
    · cases hc
  unfold headText at h
  split_ifs at h
  · rcases mem_appendPart h with h | h | h
    · rcases hpre h with h | h <;> simp [h]
    · simp [h]
    · simp [h]
  · rcases hpre h with h | h <;> simp [h]

/-- **The prefix, the command and the parameters of a line** without tags are printed within the line. -/
theorem parts_within {l : CString}
    (hps : (parseParams (nextWord (takePart (ch ':') l).2).2).1.length < 2 ^ 32) (m : CMessage)
    (hnick : m.nick = parsedNick .empty (takePart (ch ':') l).1)
    (hcommand : m.sCommand = (nextWord (takePart (ch ':') l).2).1)
    (hparams : (m.vsParams, m.bColon) = parseParams (nextWord (takePart (ch ':') l).2).2) {sText : CString}
    (hprint : m.toString ExcludeTags = some sText) : Within sText l := by
  have hmarks : ch ' ' ∈ lit " :!@" ∧ ch ':' ∈ lit " :!@" := by decide
  obtain ⟨hvs, hcolon⟩ := Prod.mk.inj hparams
  set rest := (nextWord (takePart (ch ':') l).2).2 with hrest
  have hhead : rest.head? ≠ some (ch ' ') := head_word (ch ' ') _
  have hshow := showParams_within rest hhead
  rw [← hvs, ← hcolon] at hshow
  have hvne : m.vsParams ≠ [] → rest ≠ [] := fun hne h0 => hne (by rw [hvs, h0, parseParams])
  have hlen : m.sCommand.length + rest.length ≤ (takePart (ch ':') l).2.length := hcommand ▸ length_word_le _ _
  have hlen' : rest ≠ [] → m.sCommand.length + rest.length + 1 ≤ (takePart (ch ':') l).2.length :=
    hcommand ▸ length_word_add_one_le
  have hcommandBytes : ∀ b ∈ m.sCommand, b ∈ (takePart (ch ':') l).2 :=
    fun b hb => (mem_word (ch ' ')).1 (hcommand ▸ hb)
  have hrestBytes : ∀ b ∈ rest, b ∈ (takePart (ch ':') l).2 := fun b hb => (mem_word (ch ' ')).2 hb
  have hhead := length_headText_le m.nick m.sCommand
  have happend := length_appendPart_le (headText m.nick m.sCommand) ((lit " ").join (showParams m.bColon m.vsParams))
  have hmask : Within m.nick.getHostMask ((takePart (ch ':') l).1.getD []) := by
    rw [hnick]
    cases (takePart (ch ':') l).1 with
    | none => exact .nil _
    | some p => exact getHostMask_within p
  rw [toString_excludeTags (hvs ▸ hps), Option.some_inj] at hprint
  have hbytes : ∀ b ∈ sText, b ∈ (takePart (ch ':') l).1.getD [] ∨ b ∈ (takePart (ch ':') l).2 ∨ b ∈ lit " :!@" := by
    have htext : ∀ b ∈ headText m.nick m.sCommand,
        b ∈ (takePart (ch ':') l).1.getD [] ∨ b ∈ (takePart (ch ':') l).2 ∨ b ∈ lit " :!@" := by
      intro b hb
      rcases mem_headText hb with hb | hb | rfl | rfl
      · exact (hmask.bytes b hb).imp_right .inr
      · exact .inr (.inl (hcommandBytes b hb))
      · exact .inr (.inr hmarks.1)
      · exact .inr (.inr hmarks.2)
    intro b hb
    rw [← hprint] at hb
    split_ifs at hb
    · exact htext b hb
    · rcases mem_appendPart hb with hb | rfl | hb
      · exact htext b hb
      · exact .inr (.inr hmarks.1)
      · exact .inr ((hshow.bytes b hb).imp_left (hrestBytes b))
  have hprint' : sText.length ≤ (headText m.nick m.sCommand).length + (if rest = [] then 0 else 1 + rest.length) := by
    have hshowLen := hshow.length
    rw [← hprint]
    split_ifs with hvs' hr hr
    · simp
    · omega
    · exact absurd hr (hvne hvs')
    · omega
  have hcommandLen : m.sCommand ≠ [] → (takePart (ch ':') l).2 ≠ [] := fun hne h0 => by
    rw [h0, length_nil] at hlen
    exact hne (length_eq_zero_iff.1 (by omega))
  have hrestLen : rest ≠ [] → (takePart (ch ':') l).2 ≠ [] := fun hne h0 => by
    rw [h0, length_nil] at hlen
    exact hne (length_eq_zero_iff.1 (by omega))
  have hmaskLen := hmask.length
  rcases takePart_spec (c := ch ':') (by decide) l with heq | ⟨p, r, heq, hp, hp', hpb, hrb⟩
  · rw [heq] at hbytes hmaskLen hlen hlen'
    dsimp only at hlen hlen'
    simp only [Option.getD_none, length_nil, Nat.le_zero, length_eq_zero_iff] at hmaskLen
    refine ⟨?_, fun b hb => ?_⟩
    · rw [hmaskLen, if_pos rfl, if_pos rfl] at hhead
      split_ifs at hhead hprint' with hc hr hr
      · omega
      · have := hlen' hr
        omega
      · omega
      · have := hlen' hr
        omega
    · rcases hbytes b hb with hb | hb | hb
      · cases hb
      · exact .inl hb
      · exact .inr hb
  · rw [heq] at hbytes hmaskLen hlen hlen' hcommandLen hrestLen
    dsimp only [Option.getD_some] at hmaskLen hlen hlen' hcommandLen hrestLen
    refine ⟨?_, fun b hb => ?_⟩
    · split_ifs at hhead hprint' <;> grind
    · rcases hbytes b hb with hb | hb | hb
      · exact .inl (hpb b hb)
      · exact .inl (hrb b hb)
      · exact .inr hb

theorem length_le_wordsLength (vs : VCString) : vs.length ≤ wordsLength vs := by
  induction vs with
  | nil => exact Nat.zero_le _
  | cons v vs ih =>
    rw [wordsLength_cons, length_cons]
    omega

theorem paramsFrom_congr {m m' : CMessage} (hparams : m.vsParams = m'.vsParams) (hcolon : m.bColon = m'.bColon)
    (uParams uEnd i : UInt32) : m.paramsFrom uParams uEnd i = m'.paramsFrom uParams uEnd i := by
  fun_induction CMessage.paramsFrom m uParams uEnd i with
  | case1 i hi hnone =>
    rw [paramsFrom, dif_pos hi, ← hparams, hnone]
  | case2 i hi p hp q ih =>
    rw [paramsFrom.eq_def m', dif_pos hi, ← hparams, hp, ← hcolon]
    simp only [ih]
    rfl
  | case3 i hi => rw [paramsFrom, dif_neg hi]

theorem toString_congr {m m' : CMessage} (hnick : m.nick = m'.nick) (hcommand : m.sCommand = m'.sCommand)
    (hparams : m.vsParams = m'.vsParams) (hcolon : m.bColon = m'.bColon) : m.toString ExcludeTags =
      m'.toString ExcludeTags := by
  have htags : ¬ExcludeTags &&& ExcludeTags = 0 := by decide
  have hfrom : m.getParamsColon 0 0xFFFFFFFF = m'.getParamsColon 0 0xFFFFFFFF := by
    simp only [getParamsColon, hparams, paramsFrom_congr hparams hcolon]
  simp only [CMessage.toString, htags, decide_false, Bool.false_and, Bool.false_eq_true, if_false, hnick,
    hcommand, hparams, hfrom]

theorem toString_ofLine_within {utils : CUtils} {sLine sText : CString} (h : sLine.length + 1 < 2 ^ 32)
    (hprint : ((ofLine utils sLine).bind fun m => m.toString ExcludeTags) = some sText) : Within sText sLine := by
  obtain ⟨m, hm, hprint⟩ := Option.bind_eq_some_iff.1 hprint
  obtain ⟨m', hparse, rfl⟩ := Option.map_eq_some_iff.1 hm
  rw [parse_eq] at hparse
  obtain ⟨tags, -, rfl⟩ := Option.map_eq_some_iff.1 hparse
  have hrest : ∀ b ∈ (takePart (ch '@') sLine).2, b ∈ sLine := by
    rcases takePart_spec (c := ch '@') (by decide) sLine with heq | ⟨p, r, heq, -, -, -, hrb⟩ <;> rw [heq]
    · exact fun b hb => hb
    · exact hrb
  have hlen : (takePart (ch '@') sLine).2.length ≤ sLine.length := by
    rcases takePart_spec (c := ch '@') (by decide) sLine with heq | ⟨p, r, heq, hp, -⟩ <;> rw [heq]
    dsimp only
    omega
  have hcommand : (commandPart sLine).2.length ≤ (takePart (ch '@') sLine).2.length := by
    have hword := length_word_le (ch ' ') (takePart (ch ':') (takePart (ch '@') sLine).2).2
    change (commandPart sLine).1.length + (commandPart sLine).2.length ≤ _ at hword
    rcases takePart_spec (c := ch ':') (by decide) (takePart (ch '@') sLine).2 with heq | ⟨p, r, heq, hp, -⟩ <;>
      rw [heq] at hword <;> dsimp only at hword <;> omega
  have hparams := wordsLength_parseParams (commandPart sLine).2
  have hcount := length_le_wordsLength (parseParams (commandPart sLine).2).1
  have hwithin := parts_within (lt_of_le_of_lt (hcount.trans hparams) (by omega)) _ rfl rfl rfl hprint
  exact ⟨hwithin.length.trans hlen, fun b hb => (hwithin.bytes b hb).imp_left (hrest b)⟩

end CMessage

end ZNC
