/-
The list of commands of `modules/perform.cpp`.

A command is put in order when it is added, and again each time the list is loaded: a slash in front goes, and so does
the word `raw` or `quote`; MSG is written out, and the text of a message gets its colon. Each of these is done once, so
what is behind a second slash, or behind `raw` and a slash, only goes at the next load.

Model: a command line has no NUL and no newline. The registry keeps a value as it is (`ZNC.Registry`). List and Execute
change nothing.

Results:
- `reloads_iff`: the lists that are loaded as they were saved;
- `perform_reload_iff`: the runs in which every list is;
- `perform_two_slashes`: a command that changes with the next load.
-/
import ZNC.ConfigForms
import ZNC.ModuleLine
import ZNC.SavedBuffer
import ZNC.Lib.Runs

namespace ZNC.Perform

open CString Words SaveBuff ModuleLine List

/-! ## Model -/

/-- a command without a slash in front, and then without `raw` or `quote` -/
def bare (sArg : CString) : CString :=
  let sPerf := if sArg.left 1 = lit "/" then sArg.drop 1 else sArg
  if (tok sPerf 0).equals (lit "raw") || (tok sPerf 0).equals (lit "quote") then rest sPerf 1 else sPerf

/-- MSG written out, and the colon of a message -/
def spelled (sPerf : CString) : CString :=
  let sPerf := if (tok sPerf 0).equals (lit "MSG") then lit "PRIVMSG " ++ rest sPerf 1 else sPerf
  if ((tok sPerf 0).equals (lit "PRIVMSG") || (tok sPerf 0).equals (lit "NOTICE")) && (tok sPerf 2).left 1 ≠ lit ":" then
    tok sPerf 0 ++ lit " " ++ tok sPerf 1 ++ lit " :" ++ rest sPerf 2
  else sPerf

def parsePerform (sArg : CString) : CString := spelled (bare sArg)

structure CPerform where
  vPerform : VCString
  /-- `GetNV("Perform")` -/
  sNV : CString
  /-- the lines of `PutModule` -/
  vsModule : VCString

namespace CPerform

/-- the module of a network that has none yet -/
def init : CPerform := ⟨[], [], []⟩

def putModule (s : CPerform) (sLine : CString) : CPerform := { s with vsModule := s.vsModule ++ [sLine] }

def save (s : CPerform) : CPerform := { s with sNV := unlines s.vPerform }

/-- `OnLoad`, with what the registry holds -/
def onLoad (sNV : CString) : CPerform :=
  let vPerform := sNV.split (ch '\n') false
  let s : CPerform := ⟨vPerform.map parsePerform, sNV, []⟩
  if vPerform.map parsePerform ≠ vPerform then s.save else s

def add (s : CPerform) (sCommand : CString) : CPerform :=
  let sPerf := rest sCommand 1
  if sPerf = [] then s.putModule (lit "Usage: add <command>")
  else ({ s with vPerform := s.vPerform ++ [parsePerform sPerf] }.putModule (lit "Added!")).save

def del (s : CPerform) (sCommand : CString) : CPerform :=
  let iNum := (rest sCommand 1).toUInt.toNat
  if s.vPerform.length < iNum ∨ iNum = 0 then s.putModule (lit "Illegal # Requested")
  else ({ s with vPerform := s.vPerform.eraseIdx (iNum - 1) }.putModule (lit "Command Erased.")).save

def swap (s : CPerform) (sCommand : CString) : CPerform :=
  let iNumA := (tok sCommand 1).toUInt.toNat
  let iNumB := (tok sCommand 2).toUInt.toNat
  if s.vPerform.length < iNumA ∨ iNumA = 0 ∨ s.vPerform.length < iNumB ∨ iNumB = 0 then
    s.putModule (lit "Illegal # Requested")
  else
    let a := s.vPerform.getD (iNumA - 1) []
    let b := s.vPerform.getD (iNumB - 1) []
    ({ s with vPerform := (s.vPerform.set (iNumA - 1) b).set (iNumB - 1) a }.putModule (lit "Commands Swapped.")).save

/-- `OnWebRequest`, with `GetRawParam("perform", true)`: whether the page is there, and what a POST leaves -/
def onWebRequest (s : CPerform) (sPageName : CString) (bPost : Bool) (sPerform : CString) : Bool × CPerform :=
  if sPageName ≠ lit "index" then (false, s)
  else (true, if bPost then { s with vPerform := (sPerform.split (ch '\n') false).map parsePerform }.save else s)

end CPerform

inductive Op where
  | add (sCommand : Line)
  | del (sCommand : Line)
  | swap (sCommand : Line)
  | web (sPageName : CString) (bPost : Bool) (sPerform : CString)

def exec (s : CPerform) : Op → CPerform
  | .add sCommand => s.add sCommand.1
  | .del sCommand => s.del sCommand.1
  | .swap sCommand => s.swap sCommand.1
  | .web sPageName bPost sPerform => (s.onWebRequest sPageName bPost sPerform).2

/-! ## Statement -/

/-- the list is loaded as it was saved -/
def Reloads (s : CPerform) : Prop := (CPerform.onLoad s.sNV).vPerform = s.vPerform

instance (s : CPerform) : Decidable (Reloads s) := inferInstanceAs (Decidable (_ = _))

def isRaw (w : CString) : Bool := w.equals (lit "raw") || w.equals (lit "quote")

def isMessage (w : CString) : Bool := w.equals (lit "MSG") || w.equals (lit "PRIVMSG") || w.equals (lit "NOTICE")

/-- behind one slash and one `raw` or `quote` there is a command, with no more of them, and a message has a target -/
structure Keeps (sArg : CString) : Prop where
  command : bare sArg ≠ []
  slash : (bare sArg).head? ≠ some (ch '/')
  raw : isRaw (tok (bare sArg) 0) = false
  target : isMessage (tok (bare sArg) 0) = true → tok (bare sArg) 1 ≠ []

/-- what a step has to meet -/
def Meets (_ : CPerform) : Op → Prop
  | .add sCommand => rest sCommand.1 1 ≠ [] → Keeps (rest sCommand.1 1)
  | .web sPageName bPost sPerform =>
    sPageName = lit "index" → bPost = true → ∀ sPerf ∈ sPerform.split (ch '\n') false, Keeps sPerf
  | _ => True

/-! ## Words -/

theorem tok_two_colon (s : CString) : (tok s 2).left 1 = lit ":" ↔ (rest s 2).head? = some (ch ':') := by
  have hhead : (rest s 2).head? ≠ some (ch ' ') := by
    rw [rest_two]
    exact head_word _ _
  rw [tok_two, word, left]
  cases hrest : rest s 2 with
  | nil => simp; decide
  | cons c t =>
    have hc : c ≠ ch ' ' := fun h => hhead (by rw [hrest, h]; rfl)
    have hlit : lit ":" = [ch ':'] := rfl
    simp [hc, hlit]

variable {s : CString}

theorem head_tok (h : s.head? = some (ch '/')) : (tok s 0).head? = some (ch '/') := by
  obtain ⟨t, rfl⟩ : ∃ t, s = ch '/' :: t := ⟨s.tail, (cons_head?_tail h).symm⟩
  have hslash : ch '/' ≠ ch ' ' := by decide
  rw [tok_zero, dropWhile_cons_of_neg (by simpa using hslash), word, takeWhile_cons_of_pos (by simpa using hslash)]
  rfl

/-! ## Slash, raw and quote -/

theorem bare_eq (s : CString) : bare s =
    if isRaw (tok (if s.head? = some (ch '/') then s.drop 1 else s) 0) then
      rest (if s.head? = some (ch '/') then s.drop 1 else s) 1
    else if s.head? = some (ch '/') then s.drop 1 else s := by
  have hleft : s.left 1 = lit "/" ↔ s.head? = some (ch '/') := by
    have hlit : lit "/" = [ch '/'] := rfl
    cases s <;> simp [left, hlit]
  by_cases hslash : s.head? = some (ch '/')
  · rw [bare, if_pos (hleft.2 hslash), if_pos hslash]
    rfl
  · rw [bare, if_neg (mt hleft.1 hslash), if_neg hslash]
    rfl

/-- **The first pass leaves a command alone** if there is nothing to take away, and else makes it shorter. -/
theorem bare_spec (hne : s ≠ []) :
    (s.head? ≠ some (ch '/') ∧ isRaw (tok s 0) = false ∧ bare s = s) ∨
      (¬(s.head? ≠ some (ch '/') ∧ isRaw (tok s 0) = false) ∧ (bare s).length < s.length) := by
  have hrest : ∀ t : CString, (rest t 1).length ≤ t.length := fun t => by
    by_cases ht : t = []
    · rw [ht]
      exact le_refl 0
    · exact (length_token_rest_lt ht _).le
  rw [bare_eq]
  by_cases hslash : s.head? = some (ch '/')
  · right
    refine ⟨fun h => h.1 hslash, ?_⟩
    have hdrop : (s.drop 1).length < s.length := by
      rw [length_drop]
      have := length_pos_iff.2 hne
      omega
    rw [if_pos hslash]
    split
    · exact (hrest _).trans_lt hdrop
    · exact hdrop
  · rw [if_neg hslash]
    cases hraw : isRaw (tok s 0) with
    | true => exact .inr ⟨fun h => Bool.noConfusion h.2, length_token_rest_lt hne _⟩
    | false => exact .inl ⟨hslash, rfl, rfl⟩

/-! ## Messages -/

theorem head_of_equals {w k : CString} (h : w.equals k = true) (hk : k.cStr.asLower.head? ≠ some (ch '/')) :
    w.head? ≠ some (ch '/') := by
  intro hw
  obtain ⟨t, rfl⟩ : ∃ t, w = ch '/' :: t := ⟨w.tail, (cons_head?_tail hw).symm⟩
  refine hk ?_
  rw [← of_decide_eq_true h, cStr, takeWhile_cons_of_pos (by decide), asLower, map_cons]
  rfl

theorem isMessage_spec {w : CString} (h : isMessage w = true) :
    w ≠ [] ∧ w.head? ≠ some (ch '/') ∧ isRaw w = false := by
  have hone : ∃ k ∈ [lit "MSG", lit "PRIVMSG", lit "NOTICE"], w.equals k = true := by
    simpa [isMessage, or_assoc] using h
  obtain ⟨k, hk, heq⟩ := hone
  have hconst : ∀ k ∈ [lit "MSG", lit "PRIVMSG", lit "NOTICE"],
      CString.equals [] k = false ∧ k.cStr.asLower.head? ≠ some (ch '/') ∧ isRaw k = false := by decide
  obtain ⟨hnil, hslash, hraw⟩ := hconst k hk
  refine ⟨fun hw => ?_, head_of_equals heq hslash, ?_⟩
  · rw [hw, hnil] at heq
    cases heq
  · rw [isRaw, equals_congr heq, equals_congr heq]
    exact hraw

/-- the commands whose text has a colon -/
def hasText (w : CString) : Bool := w.equals (lit "PRIVMSG") || w.equals (lit "NOTICE")

theorem isMessage_of_hasText {w : CString} (h : hasText w = true) :
    isMessage w = true ∧ w.equals (lit "MSG") = false := by
  have hone : ∃ k ∈ [lit "PRIVMSG", lit "NOTICE"], w.equals k = true := by
    simpa [hasText] using h
  obtain ⟨k, hk, heq⟩ := hone
  have hconst : ∀ k ∈ [lit "PRIVMSG", lit "NOTICE"], isMessage k = true ∧ k.equals (lit "MSG") = false := by decide
  obtain ⟨hmsg, hno⟩ := hconst k hk
  refine ⟨?_, by rw [equals_congr heq, hno]⟩
  rw [isMessage, equals_congr heq, equals_congr heq, equals_congr heq]
  exact hmsg

theorem spelled_of_plain (h : isMessage (tok s 0) = false) : spelled s = s := by
  have hall := h
  simp only [isMessage, Bool.or_eq_false_iff] at hall
  simp only [spelled, hall.1.1, hall.1.2, hall.2, Bool.false_eq_true, if_false, Bool.or_self, Bool.false_and]

theorem spelled_of_text (h : hasText (tok s 0) = true) : spelled s =
    if (rest s 2).head? = some (ch ':') then s
    else tok s 0 ++ ch ' ' :: (tok s 1 ++ ch ' ' :: ch ':' :: rest s 2) := by
  have hmsg := (isMessage_of_hasText h).2
  have hcond : (hasText (tok s 0) && (tok s 2).left 1 ≠ lit ":") = true ↔ ¬(rest s 2).head? = some (ch ':') := by
    rw [h, Bool.true_and, decide_eq_true_eq, ne_eq, tok_two_colon]
  have htext : tok s 0 ++ lit " " ++ tok s 1 ++ lit " :" ++ rest s 2 =
      tok s 0 ++ ch ' ' :: (tok s 1 ++ ch ' ' :: ch ':' :: rest s 2) := by
    simp only [append_assoc]
    rfl
  rw [spelled]
  simp only [hmsg, Bool.false_eq_true, if_false, htext]
  rw [← hasText]
  by_cases hcolon : (rest s 2).head? = some (ch ':')
  · rw [if_pos hcolon, if_neg fun hc => hcond.1 hc hcolon]
  · rw [if_neg hcolon, if_pos (hcond.2 hcolon)]

theorem spelled_message (h : isMessage (tok s 0) = true) :
    ∃ t, hasText (tok t 0) = true ∧ rest t 1 = rest s 1 ∧ spelled s = spelled t := by
  cases hmsg : (tok s 0).equals (lit "MSG") with
  | false =>
    refine ⟨s, ?_, rfl, rfl⟩
    rwa [isMessage, hmsg, Bool.false_or] at h
  | true =>
    have hhead := head_rest_one s
    obtain ⟨htok, hrest⟩ := words_append (w := lit "PRIVMSG") (by decide) (by decide) hhead
    have hname : (lit "PRIVMSG").equals (lit "MSG") = false := by decide
    refine ⟨lit "PRIVMSG" ++ ch ' ' :: rest s 1, by rw [htok]; decide, hrest, ?_⟩
    have htext : lit "PRIVMSG " ++ rest s 1 = lit "PRIVMSG" ++ ch ' ' :: rest s 1 := rfl
    rw [spelled, spelled]
    simp only [hmsg, if_true, htext, htok, hname, Bool.false_eq_true, if_false]

/-- **A message** stays as it was spelled exactly if it has a target. -/
theorem spelled_stays {t : CString} (h : hasText (tok t 0) = true) :
    hasText (tok (spelled t) 0) = true ∧ (spelled (spelled t) = spelled t ↔ tok t 1 ≠ []) := by
  have hw : tok t 0 ≠ [] := (isMessage_spec (isMessage_of_hasText h).1).1
  have hspace : ch ' ' ∉ tok t 0 := space_not_mem_tok t 0
  have hspace' : ch ' ' ∉ tok t 1 := space_not_mem_tok t 1
  have hcolon : ch ':' ≠ ch ' ' := by decide
  by_cases hhas : (rest t 2).head? = some (ch ':')
  · have hself : spelled t = t := by rw [spelled_of_text h, if_pos hhas]
    rw [hself, hself]
    refine ⟨h, iff_of_true rfl fun hnone => ?_⟩
    rw [(rest_two_of_tok_one hnone).2] at hhas
    cases hhas
  · have hnew : spelled t = tok t 0 ++ ch ' ' :: (tok t 1 ++ ch ' ' :: ch ':' :: rest t 2) := by
      rw [spelled_of_text h, if_neg hhas]
    by_cases htarget : tok t 1 = []
    · -- the colon itself is taken for the target
      have hnone := (rest_two_of_tok_one htarget).2
      rw [htarget, hnone, nil_append] at hnew
      have htok : tok (spelled t) 0 = tok t 0 := by
        rw [hnew]
        exact token_zero_append hw hspace _
      have hrest : rest (spelled t) 1 = [ch ':'] := by
        rw [hnew, rest, token_rest hw hspace]
        rfl
      have htwo : rest (spelled t) 2 = [] := by
        rw [rest_two, hrest]
        rfl
      have hone : tok (spelled t) 1 = [ch ':'] := by
        rw [tok_one, hrest]
        rfl
      refine ⟨by rw [htok]; exact h, iff_of_false (fun heq => ?_) fun hno => hno htarget⟩
      rw [spelled_of_text (by rw [htok]; exact h), htwo, if_neg (by simp), htok, hone] at heq
      have hlen := congrArg List.length heq
      rw [hnew] at hlen
      simp at hlen
    · have hhead : (tok t 1 ++ ch ' ' :: ch ':' :: rest t 2).head? ≠ some (ch ' ') := by
        rw [head?_append_of_ne_nil _ htarget]
        exact fun hh => hspace' (mem_of_mem_head? hh)
      obtain ⟨htok, hrest⟩ := words_append hw hspace hhead
      have htwo : rest (spelled t) 2 = ch ':' :: rest t 2 := by
        rw [rest_two, hnew, hrest, word_append hspace' (by simpa using hcolon)]
      have htext : hasText (tok (spelled t) 0) = true := by rw [hnew, htok, h]
      refine ⟨htext, iff_of_true ?_ htarget⟩
      rw [spelled_of_text htext, htwo, head?_cons, if_pos rfl]

theorem parsePerform_stays_iff (sArg : CString) :
    (parsePerform (parsePerform sArg) = parsePerform sArg ∧ parsePerform sArg ≠ []) ↔ Keeps sArg := by
  unfold parsePerform
  set s := bare sArg with hs
  cases hmsg : isMessage (tok s 0) with
  | true =>
    obtain ⟨hw, hslash, hraw⟩ := isMessage_spec hmsg
    obtain ⟨t, htext, hrest, hspell⟩ := spelled_message hmsg
    obtain ⟨htext', hstays⟩ := spelled_stays htext
    obtain ⟨hw', hslash', hraw'⟩ := isMessage_spec (isMessage_of_hasText htext').1
    have hne : spelled t ≠ [] := fun hnil => hw' (by rw [hnil]; rfl)
    have hbare : bare (spelled t) = spelled t := by
      rcases bare_spec hne with hb | hb
      · exact hb.2.2
      · exact absurd ⟨fun hh => hslash' (head_tok hh), hraw'⟩ hb.1
    have htarget : tok t 1 = tok s 1 := by rw [tok_one, tok_one, hrest]
    rw [hspell, hbare, hstays, htarget]
    refine ⟨fun h => ⟨fun hnil => ?_, fun hh => hslash (head_tok hh), hraw, fun _ => h.1⟩, fun h => ⟨h.target hmsg, hne⟩⟩
    rw [← hs] at hnil
    rw [hnil] at hw
    exact hw rfl
  | false =>
    rw [spelled_of_plain hmsg]
    by_cases hne : s = []
    · exact iff_of_false (fun h => h.2 hne) fun h => h.command hne
    · rcases bare_spec hne with ⟨hslash, hraw, hself⟩ | ⟨hno, hlen⟩
      · rw [hself, spelled_of_plain hmsg]
        exact iff_of_true ⟨rfl, hne⟩ ⟨hne, hslash, hraw, fun h => absurd (hmsg.symm.trans h) Bool.false_ne_true⟩
      · refine iff_of_false (fun h => ?_) fun h => hno ⟨h.slash, h.raw⟩
        cases hagain : isMessage (tok (bare s) 0) with
        | false =>
          rw [spelled_of_plain hagain] at h
          rw [h.1] at hlen
          exact lt_irrefl _ hlen
        | true =>
          obtain ⟨t, htext, -, hspell⟩ := spelled_message hagain
          have hlast := (isMessage_of_hasText (spelled_stays htext).1).1
          rw [← hspell, h.1, hmsg] at hlast
          cases hlast

/-! ## Saving and loading -/

/-- what a line can hold -/
def Plain (s : CString) : Prop := (0 : UInt8) ∉ s ∧ ch '\n' ∉ s

theorem plain_of_subset {t : CString} (h : Plain s) (hsub : t ⊆ s) : Plain t :=
  ⟨fun hc => h.1 (hsub hc), fun hc => h.2 (hsub hc)⟩

theorem plain_append {t : CString} (hs : Plain s) (ht : Plain t) : Plain (s ++ t) :=
  ⟨fun hc => (mem_append.1 hc).elim hs.1 ht.1, fun hc => (mem_append.1 hc).elim hs.2 ht.2⟩

theorem plain_tok (h : Plain s) (uPos : ℕ) : Plain (tok s uPos) :=
  plain_of_subset h (Config.token_subset s uPos false (ch ' '))

theorem plain_rest (h : Plain s) (uPos : ℕ) : Plain (rest s uPos) :=
  plain_of_subset h (Config.token_subset s uPos true (ch ' '))

theorem bare_plain (h : Plain s) : Plain (bare s) := by
  have hdrop : Plain (if s.head? = some (ch '/') then s.drop 1 else s) := by
    split
    · exact plain_of_subset h (drop_subset _ _)
    · exact h
  rw [bare_eq]
  generalize (if s.head? = some (ch '/') then s.drop 1 else s) = sPerf at hdrop ⊢
  split
  · exact plain_rest hdrop 1
  · exact hdrop

theorem plain_consts : Plain (lit "PRIVMSG ") ∧ Plain (lit " ") ∧ Plain (lit " :") := by
  unfold Plain
  decide

theorem spelled_plain (h : Plain s) : Plain (spelled s) := by
  have hmsg : Plain (if (tok s 0).equals (lit "MSG") then lit "PRIVMSG " ++ rest s 1 else s) := by
    split
    · exact plain_append plain_consts.1 (plain_rest h 1)
    · exact h
  rw [spelled]
  generalize (if (tok s 0).equals (lit "MSG") then lit "PRIVMSG " ++ rest s 1 else s) = sPerf at hmsg ⊢
  split
  · have hfront := plain_append (plain_append (plain_tok hmsg 0) plain_consts.2.1) (plain_tok hmsg 1)
    exact plain_append (plain_append hfront plain_consts.2.2) (plain_rest hmsg 2)
  · exact hmsg

/-- **A command stays one line.** -/
theorem parsePerform_plain (h : Plain s) : Plain (parsePerform s) := spelled_plain (bare_plain h)

theorem split_unlines_filter {vs : VCString} (h : ∀ v ∈ vs, Plain v) :
    (unlines vs).split (ch '\n') false = vs.filter (· ≠ []) := by
  have hnul : (0 : UInt8) ∉ unlines vs := by
    unfold unlines
    rw [mem_flatMap]
    intro ⟨v, hv, hm⟩
    rcases mem_append.1 hm with hm | hm
    · exact (h v hv).1 hm
    · exact absurd (mem_singleton.1 hm) (by decide)
  rw [CString.split, cStr_eq_self hnul]
  clear hnul
  induction vs with
  | nil => rfl
  | cons v vs ih =>
    have hrest := ih fun w hw => h w (mem_cons_of_mem _ hw)
    rw [unlines_cons, splitLoop_append (h v mem_cons_self).2, nil_append, splitLoop, if_pos rfl, hrest, Bool.false_or]
    by_cases hv : v = [] <;> simp [hv]

/-- the registry holds the list, and its commands are lines -/
structure Inv (s : CPerform) : Prop where
  saved : s.sNV = unlines s.vPerform
  plain : ∀ sPerf ∈ s.vPerform, Plain sPerf

/-- a command that is loaded as it was saved -/
def Stays (sPerf : CString) : Prop := parsePerform sPerf = sPerf ∧ sPerf ≠ []

theorem reloads_iff {s : CPerform} (h : Inv s) : Reloads s ↔ ∀ sPerf ∈ s.vPerform, Stays sPerf := by
  have hload : (CPerform.onLoad s.sNV).vPerform = (s.vPerform.filter (· ≠ [])).map parsePerform := by
    rw [h.saved, CPerform.onLoad, split_unlines_filter h.plain]
    split <;> rfl
  rw [Reloads, hload]
  refine ⟨fun heq => ?_, fun hall => ?_⟩
  · have hlen : (s.vPerform.filter (· ≠ [])).length = s.vPerform.length := by
      rw [← length_map (f := parsePerform), heq]
    have hne := length_filter_eq_length_iff.1 hlen
    rw [filter_eq_self.2 hne] at heq
    have hsame : s.vPerform.map parsePerform = s.vPerform.map id := by rw [heq, map_id]
    exact fun sPerf hmem => ⟨map_inj_left.1 hsame sPerf hmem, by simpa using hne sPerf hmem⟩
  · rw [filter_eq_self.2 fun sPerf hmem => by simpa using (hall sPerf hmem).2]
    calc s.vPerform.map parsePerform = s.vPerform.map id := map_inj_left.2 fun sPerf hmem => (hall sPerf hmem).1
      _ = s.vPerform := map_id _

/-! ## Runs -/

theorem mem_swap {vs : VCString} {a b : ℕ} (ha : a < vs.length) (hb : b < vs.length) {v : CString}
    (hv : v ∈ (vs.set a (vs.getD b [])).set b (vs.getD a [])) : v ∈ vs := by
  have hget : ∀ i, i < vs.length → vs.getD i [] ∈ vs := fun i hi => by
    rw [getD_eq_getElem?_getD, getElem?_eq_getElem hi, Option.getD_some]
    exact getElem_mem hi
  rcases mem_or_eq_of_mem_set hv with hv | rfl
  · rcases mem_or_eq_of_mem_set hv with hv | rfl
    · exact hv
    · exact hget b hb
  · exact hget a ha

theorem del_subset (s : CPerform) (sCommand : CString) : (s.del sCommand).vPerform ⊆ s.vPerform := by
  unfold CPerform.del
  dsimp only
  split
  · exact List.Subset.refl _
  · exact (eraseIdx_sublist _ _).subset

theorem swap_subset (s : CPerform) (sCommand : CString) : (s.swap sCommand).vPerform ⊆ s.vPerform := by
  unfold CPerform.swap
  dsimp only
  split
  · exact List.Subset.refl _
  · rename_i hlegal
    exact fun v hv => mem_swap (by omega) (by omega) hv

theorem onWebRequest_vPerform (s : CPerform) (sPageName : CString) (bPost : Bool) (sPerform : CString) :
    (s.onWebRequest sPageName bPost sPerform).2.vPerform =
      if sPageName = lit "index" ∧ bPost = true then (sPerform.split (ch '\n') false).map parsePerform
      else s.vPerform := by
  unfold CPerform.onWebRequest
  by_cases hpage : sPageName = lit "index" <;> cases bPost <;> simp [hpage, CPerform.save]

theorem add_vPerform (s : CPerform) (sCommand : CString) : (s.add sCommand).vPerform =
    if rest sCommand 1 = [] then s.vPerform else s.vPerform ++ [parsePerform (rest sCommand 1)] := by
  unfold CPerform.add
  dsimp only
  split <;> rfl

theorem exec_saved {s : CPerform} (h : s.sNV = unlines s.vPerform) (op : Op) :
    (exec s op).sNV = unlines (exec s op).vPerform := by
  cases op with
  | add sCommand =>
    unfold exec CPerform.add
    dsimp only
    split
    · exact h
    · rfl
  | del sCommand =>
    unfold exec CPerform.del
    dsimp only
    split
    · exact h
    · rfl
  | swap sCommand =>
    unfold exec CPerform.swap
    dsimp only
    split
    · exact h
    · rfl
  | web sPageName bPost sPerform =>
    unfold exec CPerform.onWebRequest
    dsimp only
    split
    · exact h
    · cases bPost with
      | true => rfl
      | false => exact h

theorem exec_inv {s : CPerform} (h : Inv s) (op : Op) : Inv (exec s op) := by
  refine ⟨exec_saved h.saved op, ?_⟩
  cases op with
  | add sCommand =>
    rw [exec, add_vPerform]
    split
    · exact h.plain
    · rw [forall_mem_append, forall_mem_singleton]
      exact ⟨h.plain, parsePerform_plain (plain_rest sCommand.2 1)⟩
  | del sCommand => exact fun v hv => h.plain v (del_subset s sCommand.1 hv)
  | swap sCommand => exact fun v hv => h.plain v (swap_subset s sCommand.1 hv)
  | web sPageName bPost sPerform =>
    rw [exec, onWebRequest_vPerform]
    split
    · rw [forall_mem_map]
      exact fun v hv => parsePerform_plain ⟨(mem_split hv).2.1, (mem_split hv).1⟩
    · exact h.plain

/-- **One step** leaves a list that is loaded as it was saved exactly if what it brings is in order. -/
theorem exec_stays_iff {s : CPerform} (h : ∀ sPerf ∈ s.vPerform, Stays sPerf) (op : Op) :
    (∀ sPerf ∈ (exec s op).vPerform, Stays sPerf) ↔ Meets s op := by
  have hstays : ∀ sArg, Stays (parsePerform sArg) ↔ Keeps sArg := parsePerform_stays_iff
  cases op with
  | add sCommand =>
    rw [exec, add_vPerform, Meets]
    by_cases hnone : rest sCommand.1 1 = []
    · rw [if_pos hnone]
      exact iff_of_true h fun hne => absurd hnone hne
    · rw [if_neg hnone, forall_mem_append, forall_mem_singleton, hstays]
      exact ⟨fun hall _ => hall.2, fun hkeeps => ⟨h, hkeeps hnone⟩⟩
  | del sCommand => exact iff_of_true (fun v hv => h v (del_subset s sCommand.1 hv)) trivial
  | swap sCommand => exact iff_of_true (fun v hv => h v (swap_subset s sCommand.1 hv)) trivial
  | web sPageName bPost sPerform =>
    rw [exec, onWebRequest_vPerform, Meets]
    by_cases hsent : sPageName = lit "index" ∧ bPost = true
    · rw [if_pos hsent, forall_mem_map]
      simp only [hstays]
      exact ⟨fun hall _ _ => hall, fun hkeeps => hkeeps hsent.1 hsent.2⟩
    · rw [if_neg hsent]
      exact iff_of_true h fun hpage hpost => absurd ⟨hpage, hpost⟩ hsent

/-- **The runs in which every list is loaded as it was saved**: each command that they bring is one that a second pass
leaves as it is. -/
theorem perform_reload_iff (sArg : CString) (ops : List Op) :
    ((parsePerform (parsePerform sArg) = parsePerform sArg ∧ parsePerform sArg ≠ []) ↔ Keeps sArg) ∧
      (Runs.States exec Reloads ops .init ↔ Runs.Steps exec Meets ops .init) := by
  refine ⟨parsePerform_stays_iff sArg, ?_⟩
  have hall : ∀ {P : CPerform → Op → Prop}, (∀ s op, P s op) → Runs.Steps exec P ops .init := fun hP =>
    Runs.steps_iff.2 fun _ _ _ _ => hP _ _
  have htrue : Runs.Steps exec (fun _ _ => True) ops .init := hall fun _ _ => trivial
  have hstart : Inv .init ∧ ∀ sPerf ∈ CPerform.init.vPerform, Stays sPerf :=
    ⟨⟨rfl, fun v hv => nomatch hv⟩, fun v hv => nomatch hv⟩
  have hgood : ∀ s, (Inv s ∧ ∀ sPerf ∈ s.vPerform, Stays sPerf) → Reloads s := fun s h => (reloads_iff h.1).2 h.2
  refine (and_iff_left htrue).symm.trans (Runs.keeps_iff hgood ?_ ?_ ops hstart htrue)
  · exact fun s op h _ hmeets => ⟨⟨exec_inv h.1 op, (exec_stays_iff h.2 op).2 hmeets⟩, trivial⟩
  · exact fun s op h _ hreloads _ => (exec_stays_iff h.2 op).1 ((reloads_iff (exec_inv h.1 op)).1 hreloads)

/-- **Two slashes**: the command is loaded without the second one. -/
theorem perform_two_slashes :
    ¬Reloads (exec .init (.add ⟨lit "Add //join #a", by decide⟩)) ∧
      ¬∀ sArg, parsePerform (parsePerform sArg) = parsePerform sArg := by
  refine ⟨by decide +kernel, fun h => ?_⟩
  have htwo : parsePerform (parsePerform (lit "//join #a")) ≠ parsePerform (lit "//join #a") := by decide +kernel
  exact htwo (h _)

end ZNC.Perform
