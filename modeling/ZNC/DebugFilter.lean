/-
Passwords in the debug output: `CDebug::Filter` of `src/ZNCDebug.cpp`, for the lines that `CMessage::Parse` takes for PASS.

The filter looks at the first five bytes of a line and at what stands behind the first colon. The parser passes over tags and a
prefix, and takes the first parameter with a colon or without, and with more parameters behind it.

`Reader` says which part of the parameter is the password: ZNC takes what stands behind the first colon (`CClient::ParsePass`), an
IRC server takes the whole parameter.

Results:
- `passParam_spec`, `parsePass_sPass`: where the parameter and its password are;
- `filter_place`: what the filter shows of a line around its password;
- `filter_iff`: the pairs of passwords with the same output.
-/
import ZNC.ClientLogin
import ZNC.MessageLine

namespace ZNC

open CString Words List

/-! ## The filter -/

def CDebug.filter (sUnfilteredLine : CString) : CString :=
  if sUnfilteredLine.startsWith (lit "PASS ") then
    let sPrefix := sUnfilteredLine.take (if sUnfilteredLine.deref 5 = ch ':' then 6 else 5)
    let sRest : CString := sUnfilteredLine.drop sPrefix.length
    match sRest.split (ch ':') true with
    | sFirst :: _ :: _ => sPrefix ++ sFirst ++ lit ":<censored>"
    | _ => sPrefix ++ lit "<censored>"
  else sUnfilteredLine

namespace DebugFilter

open CMessage CDebug

/-! ## Where the password is -/

inductive Reader where
  | znc
  | server
deriving DecidableEq, Repr

/-- what stands in the parameter in front of the password -/
def userPart (reader : Reader) (sParam : CString) : CString :=
  match reader with
  | .znc => if ch ':' ∈ sParam then sParam.takeWhile (· ≠ ch ':') ++ [ch ':'] else []
  | .server => []

def passwordPart (reader : Reader) (sParam : CString) : CString := sParam.drop (userPart reader sParam).length

/-- the first parameter of a PASS line, between what stands before it and what stands behind it -/
def passParam (sLine : CString) : Option (CString × CString × CString) :=
  if (commandPart sLine).1.equals (lit "PASS") then
    let sBefore := sLine.take (sLine.length - (commandPart sLine).2.length)
    match (commandPart sLine).2 with
    | [] => none
    | c :: l =>
      if c = ch ':' then some (sBefore ++ [c], l, [])
      else some (sBefore, (c :: l).takeWhile (· ≠ ch ' '), (c :: l).dropWhile (· ≠ ch ' '))
  else none

/-- the password of a PASS line, between what stands before it and what stands behind it -/
def passPlace (reader : Reader) (sLine : CString) : Option (CString × CString × CString) :=
  (passParam sLine).map fun (sBefore, sParam, sBehind) => (sBefore ++ userPart reader sParam, passwordPart reader sParam, sBehind)

theorem user_append_password (reader : Reader) (sParam : CString) :
    userPart reader sParam ++ passwordPart reader sParam = sParam := by
  have hprefix : userPart reader sParam <+: sParam := by
    cases reader with
    | server => exact nil_prefix
    | znc =>
      rw [userPart]
      split_ifs with hcolon
      · obtain ⟨w, r, rfl, hw⟩ := eq_append_cons_of_mem hcolon
        rw [(takeWhile_append_sep hw r).1]
        exact ⟨r, by rw [append_assoc, singleton_append]⟩
      · exact nil_prefix
  exact prefix_iff_eq_append.1 hprefix

theorem parsePass_sPass (s : Login.CClient) (sParam : CString) : (s.parsePass sParam).sPass = passwordPart .znc sParam := by
  rw [Login.CClient.parsePass, passwordPart, userPart]
  split_ifs with hcolon
  · obtain ⟨sUser, sNetwork, sIdentifier, heq⟩ := Login.CClient.parseUser_eq
      { s with sPass := (sParam.dropWhile (· ≠ ch ':')).drop 1 } (sParam.takeWhile (· ≠ ch ':'))
    rw [heq]
    obtain ⟨w, r, rfl, hw⟩ := eq_append_cons_of_mem hcolon
    obtain ⟨htake, hdrop⟩ := takeWhile_append_sep hw r
    rw [htake, hdrop, ← singleton_append, ← append_assoc, drop_left]
    rfl
  · rfl

theorem takePart_suffix (c : UInt8) (begin : CString) : (takePart c begin).2 <:+ begin := by
  rw [takePart]
  split_ifs
  · exact (dropWhile_suffix _).trans (dropWhile_suffix _)
  · exact suffix_rfl

theorem commandPart_suffix (sLine : CString) : (commandPart sLine).2 <:+ sLine :=
  ((dropWhile_suffix _).trans (dropWhile_suffix _)).trans ((takePart_suffix _ _).trans (takePart_suffix _ _))

variable {sLine : CString}

theorem before_append (h : (commandPart sLine).1.equals (lit "PASS") = true) (hne : (commandPart sLine).2 ≠ []) :
    sLine.take (sLine.length - (commandPart sLine).2.length) ++ (commandPart sLine).2 = sLine ∧
      5 ≤ (sLine.take (sLine.length - (commandPart sLine).2.length)).length := by
  have hcommand : 4 ≤ (commandPart sLine).1.length := by
    have hlower := congrArg List.length (of_decide_eq_true h)
    rw [asLower, asLower, length_map, length_map] at hlower
    calc 4 = ((commandPart sLine).1.cStr).length := hlower.symm
      _ ≤ (commandPart sLine).1.length := (List.takeWhile_prefix _).length_le
  have hline : (commandPart sLine).1.length + (commandPart sLine).2.length + 1 ≤ sLine.length :=
    (length_word_add_one_le hne).trans ((takePart_suffix _ _).trans (takePart_suffix _ _)).length_le
  refine ⟨suffix_iff_eq_append.1 (commandPart_suffix sLine), ?_⟩
  rw [length_take]
  omega

/-- **The parameter** is the first one of the message. -/
theorem passParam_spec {m m' : CMessage} (h : m.parse sLine = some m') :
    (passParam sLine).map (·.2.1) = if m'.sCommand.equals (lit "PASS") = true then m'.vsParams.head? else none := by
  rw [parse_eq] at h
  obtain ⟨mssTags, -, rfl⟩ := Option.map_eq_some_iff.1 h
  rw [passParam]
  split_ifs with hcommand
  · cases hbegin : (commandPart sLine).2 with
    | nil => rw [parseParams]; rfl
    | cons c l =>
      rw [parseParams]
      by_cases hcolon : c = ch ':'
      · simp only [if_pos hcolon]
        rfl
      · simp only [if_neg hcolon]
        rfl
  · rfl

/-- **The place of the password** is behind the first five bytes; behind six if a colon follows the five. -/
theorem passPlace_spec {reader : Reader} {sBefore sPass sBehind : CString}
    (h : passPlace reader sLine = some (sBefore, sPass, sBehind)) :
    sBefore ++ (sPass ++ sBehind) = sLine ∧ 5 ≤ sBefore.length ∧ (sLine.deref 5 = ch ':' → 6 ≤ sBefore.length) := by
  obtain ⟨⟨sFront, sParam, sRest⟩, hparam, heq⟩ := Option.map_eq_some_iff.1 h
  simp only [Prod.mk.injEq] at heq
  obtain ⟨rfl, rfl, rfl⟩ := heq
  rw [← append_assoc, append_assoc sFront, user_append_password, length_append]
  rw [passParam] at hparam
  split_ifs at hparam with hcommand
  rcases hbegin : (commandPart sLine).2 with - | ⟨c, l⟩
  · rw [hbegin] at hparam
    exact absurd hparam (by simp)
  · obtain ⟨hline, hlength⟩ := before_append hcommand (hbegin ▸ cons_ne_nil c l)
    rw [hbegin] at hparam hline hlength
    simp only at hparam
    generalize sLine.take (sLine.length - (c :: l).length) = sHead at hparam hline hlength
    split_ifs at hparam with hcolon
    · simp only [Option.some.injEq, Prod.mk.injEq] at hparam
      obtain ⟨rfl, rfl, rfl⟩ := hparam
      rw [append_nil, append_assoc, singleton_append, length_append, length_singleton]
      exact ⟨hline, by omega, fun _ => by omega⟩
    · simp only [Option.some.injEq, Prod.mk.injEq] at hparam
      obtain ⟨rfl, rfl, rfl⟩ := hparam
      rw [append_assoc, takeWhile_append_dropWhile]
      refine ⟨hline, by omega, fun hsixth => ?_⟩
      by_contra hshort
      -- the sixth byte is the first one of the parameter, which is no colon
      have hfive : sHead.length = 5 := by omega
      rw [← hline, deref, getD_eq_getElem?_getD, ← hfive, getElem?_append_right le_rfl, Nat.sub_self] at hsixth
      exact hcolon hsixth

/-! ## What the filter shows -/

/-- the text up to the first colon, if something stands behind it -/
def upToColon (s : CString) : Option CString :=
  match cut (ch ':') s.cStr with
  | some (w, r) => if r = [] then none else some w
  | none => none

def censored (sRest : CString) : CString :=
  match upToColon sRest with
  | some w => w ++ lit ":<censored>"
  | none => lit "<censored>"

theorem censored_inj {s t : CString} : censored s = censored t ↔ upToColon s = upToColon t := by
  have hlength (w : CString) : w ++ lit ":<censored>" ≠ lit "<censored>" := fun h => by
    have := congrArg List.length h
    rw [length_append] at this
    have hcolon : (lit ":<censored>").length = 11 ∧ (lit "<censored>").length = 10 := by decide
    omega
  rw [censored, censored]
  cases upToColon s with
  | none =>
    cases upToColon t with
    | none => exact iff_of_true rfl rfl
    | some w => exact iff_of_false (hlength w).symm (by simp)
  | some v =>
    cases upToColon t with
    | none => exact iff_of_false (hlength v) (by simp)
    | some w => rw [append_cancel_right_eq, Option.some_inj]

theorem splitLoop_ne_nil (cDelim : UInt8) (sTmp p : CString) (h : sTmp ≠ [] ∨ p ≠ []) : splitLoop cDelim true sTmp p ≠ [] := by
  induction p generalizing sTmp with
  | nil =>
    rw [splitLoop, if_neg (h.resolve_right fun hne => hne rfl)]
    exact cons_ne_nil _ _
  | cons c p ih =>
    rw [splitLoop, Bool.true_or, if_pos rfl]
    split_ifs
    · exact cons_ne_nil _ _
    · exact ih (sTmp ++ [c]) (.inl (append_ne_nil_of_right_ne_nil _ (cons_ne_nil _ _)))

theorem split_censored (sPrefix sRest : CString) :
    (match sRest.split (ch ':') true with
      | sFirst :: _ :: _ => sPrefix ++ sFirst ++ lit ":<censored>"
      | _ => sPrefix ++ lit "<censored>") = sPrefix ++ censored sRest := by
  rw [split, censored, upToColon]
  generalize sRest.cStr = s
  cases hcut : cut (ch ':') s with
  | none =>
    have hno := splitLoop_append (cut_eq_none hcut) true [] []
    rw [append_nil, nil_append] at hno
    rw [hno, splitLoop]
    split_ifs <;> rfl
  | some parts =>
    obtain ⟨w, r⟩ := parts
    obtain ⟨rfl, hw⟩ := cut_eq_some hcut
    rw [splitLoop_append hw, nil_append, splitLoop, if_pos rfl, Bool.true_or, if_pos rfl]
    simp only
    split_ifs with hr
    · subst hr
      rfl
    · obtain ⟨x, xs, hparts⟩ := exists_cons_of_ne_nil (splitLoop_ne_nil (ch ':') [] r (.inr hr))
      rw [hparts]
      exact append_assoc _ _ _

/-- where the filter goes on to read -/
def start (sLine : CString) : ℕ := if sLine.deref 5 = ch ':' then 6 else 5

theorem filter_eq (h : sLine.startsWith (lit "PASS ") = true) :
    CDebug.filter sLine = sLine.take (start sLine) ++ censored (sLine.drop (start sLine)) := by
  have hfive : 5 ≤ sLine.length := by
    have hprefix := ((startsWith_iff (by decide) sLine).1 h).length_le
    rwa [asLower, asLower, length_map, length_map] at hprefix
  have hlength : (sLine.take (start sLine)).length = start sLine := by
    refine length_take_of_le ?_
    rw [start]
    split_ifs with hcolon
    · by_contra hshort
      rw [deref, getD_eq_getElem?_getD, getElem?_eq_none (by omega)] at hcolon
      exact absurd hcolon (by decide)
    · exact hfive
  rw [CDebug.filter, if_pos h]
  simp only
  rw [← start, hlength]
  exact split_censored _ _

theorem startsWith_before {sBefore s : CString} (h : 5 ≤ sBefore.length) :
    (sBefore ++ s).startsWith (lit "PASS ") = sBefore.startsWith (lit "PASS ") := by
  have hleft : (sBefore ++ s).left 5 = sBefore.left 5 := take_append_of_le_length h
  have hlength : (lit "PASS ").length = 5 := rfl
  rw [startsWith, startsWith, hlength, hleft]

theorem filter_place {reader : Reader} {sBefore sPass sBehind : CString}
    (h : passPlace reader sLine = some (sBefore, sPass, sBehind)) (hstart : sBefore.startsWith (lit "PASS ") = true) :
    filter sLine = sBefore.take (start sBefore) ++ censored (sBefore.drop (start sBefore) ++ (sPass ++ sBehind)) := by
  obtain ⟨rfl, hfive, hsix⟩ := passPlace_spec h
  have hsame : start (sBefore ++ (sPass ++ sBehind)) = start sBefore ∧ start sBefore ≤ sBefore.length := by
    by_cases hlong : 6 ≤ sBefore.length
    · have hsixth : (sBefore ++ (sPass ++ sBehind)).deref 5 = sBefore.deref 5 := by
        rw [deref, deref, getD_eq_getElem?_getD, getD_eq_getElem?_getD, getElem?_append_left (by omega)]
      rw [start, start, hsixth]
      refine ⟨rfl, ?_⟩
      split_ifs <;> omega
    · have hnone : sBefore.deref 5 = 0 := by
        rw [deref, getD_eq_getElem?_getD, getElem?_eq_none (by omega)]
        rfl
      rw [start, start, if_neg fun hcolon => hlong (hsix hcolon), hnone, if_neg (by decide)]
      exact ⟨rfl, hfive⟩
  rw [filter_eq ((startsWith_before hfive).trans hstart), hsame.1, take_append_of_le_length hsame.2,
    drop_append_of_le_length hsame.2]

/-! ## Pairs of passwords -/

theorem upToColon_append {s : CString} (h : (0 : UInt8) ∉ s) (t : CString) :
    upToColon (s ++ t) = match cut (ch ':') s with
      | some (w, r) => if r ++ t.cStr = [] then none else some w
      | none => (upToColon t).map (s ++ ·) := by
  rw [upToColon, upToColon, cStr_append h]
  cases hcut : cut (ch ':') s with
  | some parts =>
    obtain ⟨w, r⟩ := parts
    obtain ⟨rfl, hw⟩ := cut_eq_some hcut
    rw [append_assoc, cons_append, cut_append hw]
  | none =>
    have hno := cut_eq_none hcut
    cases hrest : cut (ch ':') t.cStr with
    | none =>
      rw [cut_of_not_mem fun hmem => (mem_append.1 hmem).elim hno (cut_eq_none hrest)]
      rfl
    | some parts =>
      obtain ⟨w, r⟩ := parts
      obtain ⟨heq, hw⟩ := cut_eq_some hrest
      rw [heq, ← append_assoc, cut_append fun hmem => (mem_append.1 hmem).elim hno hw]
      simp only
      split_ifs <;> rfl

/-- what stands before the password, behind the command -/
def lead (sBefore : CString) : CString := sBefore.drop (start sBefore)

/-- The filter shows the same of two lines that begin with "PASS ": a NUL ends what it reads before the password; or it cuts at a
colon before the password, behind which there is text in both lines or in none; or there is no colon before the password, and the
same text stands before the next one. -/
def Hidden (sLead sPass1 sPass2 sBehind : CString) : Prop :=
  (0 : UInt8) ∈ sLead ∨
    match cut (ch ':') sLead with
    | some (_, r) => r ≠ [] ∨ ((sPass1 ++ sBehind).cStr = [] ↔ (sPass2 ++ sBehind).cStr = [])
    | none => upToColon (sPass1 ++ sBehind) = upToColon (sPass2 ++ sBehind)

theorem upToColon_iff (sLead sPass1 sPass2 sBehind : CString) :
    upToColon (sLead ++ (sPass1 ++ sBehind)) = upToColon (sLead ++ (sPass2 ++ sBehind)) ↔ Hidden sLead sPass1 sPass2 sBehind := by
  rw [Hidden]
  by_cases hnul : (0 : UInt8) ∈ sLead
  · rw [upToColon, upToColon, cStr_append_of_mem hnul, cStr_append_of_mem hnul]
    exact iff_of_true rfl (.inl hnul)
  · rw [upToColon_append hnul, upToColon_append hnul, or_iff_right hnul]
    cases cut (ch ':') sLead with
    | none =>
      refine (Option.map_injective fun s t h => ?_).eq_iff
      exact append_cancel_left h
    | some parts =>
      obtain ⟨w, r⟩ := parts
      simp only [append_eq_nil_iff]
      by_cases hr : r = []
      · simp only [hr, true_and, ne_eq, not_true_eq_false, false_or]
        split_ifs with h1 h2 h2 <;> simp [h1, h2]
      · simp only [hr, false_and, if_false, ne_eq, not_false_eq_true, true_or]

/-- **Passwords in the debug output**: two lines that differ only in the password come out the same exactly if no tags and no prefix
stand before the command and the filter hides the difference. -/
theorem filter_iff (reader : Reader) {sLine1 sLine2 sBefore sPass1 sPass2 sBehind : CString}
    (h1 : passPlace reader sLine1 = some (sBefore, sPass1, sBehind))
    (h2 : passPlace reader sLine2 = some (sBefore, sPass2, sBehind)) :
    filter sLine1 = filter sLine2 ↔
      sPass1 = sPass2 ∨ sBefore.startsWith (lit "PASS ") = true ∧ Hidden (lead sBefore) sPass1 sPass2 sBehind := by
  by_cases hstart : sBefore.startsWith (lit "PASS ") = true
  · rw [filter_place h1 hstart, filter_place h2 hstart, append_cancel_left_eq, censored_inj, and_iff_right hstart, ← lead,
      upToColon_iff]
    refine ⟨.inr, ?_⟩
    rintro (rfl | h)
    · exact (upToColon_iff _ _ _ _).1 rfl
    · exact h
  · obtain ⟨hline1, hfive, -⟩ := passPlace_spec h1
    obtain ⟨hline2, -, -⟩ := passPlace_spec h2
    have hraw (s : CString) : filter (sBefore ++ s) = sBefore ++ s :=
      if_neg fun h => hstart ((startsWith_before hfive).symm.trans h)
    rw [← hline1, ← hline2, hraw, hraw, append_cancel_left_eq, append_cancel_right_eq]
    exact ⟨.inl, fun h => h.resolve_right fun hboth => hstart hboth.1⟩

theorem filter_user : filter (lit "PASS alice:secret") = filter (lit "PASS alice:hidden") := by
  have h1 : passPlace .znc (lit "PASS alice:secret") = some (lit "PASS alice:", lit "secret", []) := by decide
  have h2 : passPlace .znc (lit "PASS alice:hidden") = some (lit "PASS alice:", lit "hidden", []) := by decide
  exact (filter_iff .znc h1 h2).2 (.inr ⟨by decide, .inr (.inr (by decide))⟩)

/-- A line with tags comes out as it is. -/
theorem filter_tags : passPlace .znc (lit "@a PASS alice:secret") = some (lit "@a PASS alice:", lit "secret", []) ∧
    passPlace .znc (lit "@a PASS alice:hidden") = some (lit "@a PASS alice:", lit "hidden", []) ∧
    filter (lit "@a PASS alice:secret") ≠ filter (lit "@a PASS alice:hidden") := by
  decide +kernel

end DebugFilter

end ZNC
