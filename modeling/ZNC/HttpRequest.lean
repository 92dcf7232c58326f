/-
The header of a web request: `ReadLine`, `ParseURI` and `ParseParams` of `src/HTTPSock.cpp`.

Parameters and credentials are cut with `Token`, which passes over a run of separators as over one. In a pair of a form the value
is escaped, so nothing can follow the '='; in the credentials the password stands as it is, and loses the colons that it begins with.

Model: `Escape_n` does not return for texts from 2^32 bytes on, and so neither do the functions here: then there is no result. What
the header says of the address is in `ForwardedFor.lean`; the end of the header, and the headers that are about the answer, are
left out.

Results:
- `parseParams_iff`: escaped pairs come back if they are short enough to be unescaped;
- `parseParams_decodes`: they are if the form can be received;
- `authorization_iff`: the credentials that come out as they were put in.
-/
import ZNC.Base64
import ZNC.Config
import ZNC.EscapeRoundTrip

namespace ZNC.HttpRequest

open CString Config Words List

/-! ## Model -/

/-- `map<CString, VCString>` -/
abbrev Params : Type := OrdMap CString VCString

/-- the round of `ParseParams` for a pair -/
def parsePair (msvsParams : Params) (sPair : CString) : Option Params := do
  let sName ← (sPair.token 0 false (ch '=') false).escape_n .EURL .EASCII
  let sValue ← (sPair.token 1 true (ch '=') false).escape_n .EURL .EASCII
  some (EntryMap.pushBack msvsParams sName sValue)

def parseParams (sParams : CString) : Option Params := (sParams.split (ch '&') true).foldlM parsePair .empty

structure CHTTPSock where
  bGotHeader : Bool
  bPost : Bool
  bHTTP10Client : Bool
  sURI : CString
  msvsGETParams : Params
  msRequestCookies : MCString
  sUser : CString
  sPass : CString
  bBasicAuth : Bool

namespace CHTTPSock

def init : CHTTPSock := ⟨false, false, false, [], .empty, .empty, [], [], false⟩

def parseURI (s : CHTTPSock) : Option CHTTPSock := do
  let msvsGETParams ← parseParams (s.sURI.token 1 true (ch '?') false)
  some { s with msvsGETParams := msvsGETParams, sURI := s.sURI.token 0 false (ch '?') false }

/-- one of the pairs of `Cookie:` -/
def readCookie (s : CHTTPSock) (sPair : CString) : Option CHTTPSock := do
  let sName ← (sPair.token 0 false (ch '=') false).escape_n .EURL .EASCII
  let sValue ← (sPair.token 1 true (ch '=') false).escape_n .EURL .EASCII
  some { s with msRequestCookies := s.msRequestCookies.insert sName sValue }

def readAuthorization (s : CHTTPSock) (sLine : CString) : CHTTPSock :=
  let sUnhashed := (sLine.token 2 false (ch ' ') false).base64Decode
  { s with
    sUser := sUnhashed.token 0 false (ch ':') false
    sPass := sUnhashed.token 1 true (ch ':') false
    bBasicAuth := true }

def readLine (s : CHTTPSock) (sData : CString) : Option CHTTPSock :=
  if s.bGotHeader then some s
  else
    let sLine := sData.trimRight_n (lit "\r\n")
    let sName := sLine.token 0 false (ch ' ') false
    if sName.equals (lit "GET") then
      { s with
        bPost := false
        sURI := sLine.token 1 false (ch ' ') false
        bHTTP10Client := (sLine.token 2 false (ch ' ') false).equals (lit "HTTP/1.0") }.parseURI
    else if sName.equals (lit "POST") then { s with bPost := true, sURI := sLine.token 1 false (ch ' ') false }.parseURI
    else if sName.equals (lit "Cookie:") then
      (((sLine.token 1 true (ch ' ') false).split (ch ';') false).map trim).foldlM readCookie s
    else if sName.equals (lit "Authorization:") then some (s.readAuthorization sLine)
    else some s

end CHTTPSock

/-! ## Statement -/

def pairText (pair : CString × CString) : CString := escaped .EURL pair.1 ++ ch '=' :: escaped .EURL pair.2

/-- the values of a name, in their order -/
def valuesOf (pairs : List (CString × CString)) (sName : CString) : VCString :=
  (pairs.filter (·.1 = sName)).map Prod.snd

/-- the values of each name, and no other name -/
def Decodes (pairs : List (CString × CString)) (msvsParams : Params) : Prop :=
  ∀ sName, msvsParams.find sName = if valuesOf pairs sName = [] then none else some (valuesOf pairs sName)

/-- the name and the value of a pair can be unescaped -/
def Short (pair : CString × CString) : Prop := escapedLength .EURL pair.1 < 2 ^ 32 ∧ escapedLength .EURL pair.2 < 2 ^ 32

instance Short.decidable (pair : CString × CString) : Decidable (Short pair) := inferInstanceAs (Decidable (_ ∧ _))

/-- the line of Basic credentials -/
def authorization (user password : CString) : CString :=
  lit "Authorization: Basic " ++ base64Encode (user ++ ch ':' :: password)

/-! ## Pairs -/

/-- the bytes besides letters and digits in an escaped text -/
def urlMarks : CString := [0x5F, 0x2E, 0x2D, 0x2B, 0x25]

theorem mem_escapeTo_url (c : UInt8) : (escapeTo .EURL c).all (fun d => isalnum d || d ∈ urlMarks) = true := by
  revert c
  decide +kernel

theorem not_mem_escaped_url {b : UInt8} (hb : isalnum b = false) (hmark : b ∉ urlMarks) (s : CString) :
    b ∉ escaped .EURL s := by
  intro hmem
  obtain ⟨c, -, hc⟩ := mem_flatMap.1 hmem
  have hcode := all_eq_true.1 (mem_escapeTo_url c) b hc
  rw [hb, Bool.false_or] at hcode
  exact hmark (of_decide_eq_true hcode)

theorem escaped_ne {s : CString} (hs : s ≠ []) : escaped .EURL s ≠ [] := by
  have hle := length_le_escapedLength .EURL s
  rw [← length_escaped] at hle
  exact length_pos_iff.1 ((length_pos_iff.2 hs).trans_le hle)

theorem unescape_eq (s : CString) :
    (escaped .EURL s).escape_n .EURL .EASCII = if escapedLength .EURL s < 2 ^ 32 then some s else none := by
  split_ifs with hlen
  · exact escape_n_escaped .EURL s hlen
  · rw [escape_n, escape_n_none]
    rw [length_escaped]
    exact not_lt.1 hlen

/-- **A pair** is cut into its name and its value again. -/
theorem parsePair_eq {pair : CString × CString} (hname : pair.1 ≠ []) (msvsParams : Params) :
    parsePair msvsParams (pairText pair) =
      if Short pair then some (EntryMap.pushBack msvsParams pair.1 pair.2) else none := by
  have heq (s : CString) : ch '=' ∉ escaped .EURL s := not_mem_escaped_url (by decide) (by decide) s
  have hvalue : (escaped .EURL pair.2).dropWhile (· = ch '=') = escaped .EURL pair.2 := by
    refine dropWhile_eq_self_iff.2 fun hl hfirst => heq pair.2 ?_
    rw [← of_decide_eq_true hfirst]
    exact getElem_mem hl
  rw [parsePair, pairText, token_zero_append (escaped_ne hname) (heq _), token_rest (escaped_ne hname) (heq _), hvalue,
    unescape_eq, unescape_eq]
  by_cases hshort : Short pair
  · rw [if_pos hshort, if_pos hshort.1, if_pos hshort.2]
    rfl
  · rw [if_neg hshort]
    rcases not_and_or.1 hshort with hlong | hlong
    · rw [if_neg hlong]
      rfl
    · rw [if_neg hlong]
      split_ifs <;> rfl

theorem split_pairs (pairs : List (CString × CString)) :
    (join (lit "&") (pairs.map pairText)).split (ch '&') true = pairs.map pairText := by
  have hdelim : ch '&' ≠ 0 := by decide
  refine split_join hdelim fun w hw => ?_
  obtain ⟨pair, -, rfl⟩ := mem_map.1 hw
  have hnot {b : UInt8} (hb : isalnum b = false) (hmark : b ∉ urlMarks) (hne : b ≠ ch '=') : b ∉ pairText pair := by
    rw [pairText, mem_append, mem_cons]
    rintro (hmem | hmem | hmem)
    · exact not_mem_escaped_url hb hmark _ hmem
    · exact hne hmem
    · exact not_mem_escaped_url hb hmark _ hmem
  refine ⟨?_, hnot (by decide) (by decide) (by decide), hnot (by decide) (by decide) (by decide)⟩
  rw [pairText]
  exact append_ne_nil_of_right_ne_nil _ (cons_ne_nil _ _)

/-- a name after some more values -/
def more (o : Option VCString) (values : VCString) : Option VCString :=
  if values = [] then o else some (o.getD [] ++ values)

theorem more_more (o : Option VCString) (values values' : VCString) :
    more (more o values) values' = more o (values ++ values') := by
  rw [more, more, more]
  by_cases hvalues : values = []
  · rw [hvalues, if_pos rfl, nil_append]
  · by_cases hvalues' : values' = []
    · rw [hvalues', if_pos rfl, append_nil]
    · rw [if_neg hvalues', if_neg hvalues, if_neg fun h => hvalues (append_eq_nil_iff.1 h).1, Option.getD_some,
        append_assoc]

theorem find_pushBack (m : EntryMap) (sKey sValue sName : CString) :
    (EntryMap.pushBack m sKey sValue).find sName = more (m.find sName) (if sKey = sName then [sValue] else []) := by
  rw [EntryMap.pushBack, OrdMap.find_insert]
  by_cases hname : sName = sKey
  · rw [if_pos hname, if_pos hname.symm, hname]
    rfl
  · rw [if_neg hname, if_neg (Ne.symm hname)]
    rfl

theorem valuesOf_cons (pair : CString × CString) (pairs : List (CString × CString)) (sName : CString) :
    valuesOf (pair :: pairs) sName = (if pair.1 = sName then [pair.2] else []) ++ valuesOf pairs sName := by
  rw [valuesOf, filter_cons]
  by_cases hname : pair.1 = sName
  · rw [if_pos (by simpa using hname), if_pos hname]
    rfl
  · rw [if_neg (by simpa using hname), if_neg hname]
    rfl

/-- **All pairs**, read into a table. -/
theorem foldlM_pairs {pairs : List (CString × CString)} (hnames : ∀ pair ∈ pairs, pair.1 ≠ []) (m : Params) :
    ((∀ pair ∈ pairs, Short pair) →
      ∃ m', (pairs.map pairText).foldlM parsePair m = some m' ∧
        ∀ sName, m'.find sName = more (m.find sName) (valuesOf pairs sName)) ∧
      ((∃ pair ∈ pairs, ¬Short pair) → (pairs.map pairText).foldlM parsePair m = none) := by
  induction pairs generalizing m with
  | nil =>
    refine ⟨fun _ => ⟨m, rfl, fun sName => rfl⟩, ?_⟩
    rintro ⟨pair, hpair, -⟩
    cases hpair
  | cons pair pairs ih =>
    obtain ⟨hname, hnames⟩ := forall_mem_cons.1 hnames
    obtain ⟨ihshort, ihlong⟩ := ih hnames (EntryMap.pushBack m pair.1 pair.2)
    rw [map_cons, foldlM_cons, parsePair_eq hname]
    by_cases hshort : Short pair
    · rw [if_pos hshort]
      constructor
      · intro hall
        obtain ⟨m', hm', hfind⟩ := ihshort (forall_mem_cons.1 hall).2
        refine ⟨m', hm', fun sName => ?_⟩
        rw [hfind, find_pushBack, more_more, valuesOf_cons]
      · rintro ⟨other, hother, hlong⟩
        rcases mem_cons.1 hother with rfl | hother
        · exact absurd hshort hlong
        · exact ihlong ⟨other, hother, hlong⟩
    · rw [if_neg hshort]
      exact ⟨fun hall => absurd (forall_mem_cons.1 hall).1 hshort, fun _ => rfl⟩

/-- **A form that is sent** is decoded exactly if all its names and values are short. -/
theorem parseParams_iff {pairs : List (CString × CString)} (hnames : ∀ pair ∈ pairs, pair.1 ≠ []) :
    (∃ msvsParams, parseParams (join (lit "&") (pairs.map pairText)) = some msvsParams ∧ Decodes pairs msvsParams) ↔
      ∀ pair ∈ pairs, Short pair := by
  obtain ⟨hshort, hlong⟩ := foldlM_pairs hnames .empty
  rw [parseParams, split_pairs]
  constructor
  · rintro ⟨msvsParams, hread, -⟩
    by_contra hnot
    push Not at hnot
    rw [hlong hnot] at hread
    cases hread
  · intro hall
    obtain ⟨m, hm, hfind⟩ := hshort hall
    refine ⟨m, hm, fun sName => ?_⟩
    rw [hfind, OrdMap.find_empty, more]
    rfl

/-- `MAX_POST_SIZE`: what `CHTTPSock` reads of a form; the lines of a request are shorter -/
def maxPostSize : ℕ := 1024 * 1024

theorem length_pairText_le {pairs : List (CString × CString)} {pair : CString × CString} (h : pair ∈ pairs) :
    (pairText pair).length ≤ (join (lit "&") (pairs.map pairText)).length := by
  cases pairs with
  | nil => cases h
  | cons first pairs =>
    rw [map_cons, join_cons, length_append]
    rcases mem_cons.1 h with rfl | h
    · exact Nat.le_add_right _ _
    · obtain ⟨before, behind, rfl⟩ := append_of_mem h
      simp only [map_append, map_cons, flatMap_append, flatMap_cons, length_append]
      omega

/-- **A form that can be received** is decoded. -/
theorem parseParams_decodes {pairs : List (CString × CString)} (hnames : ∀ pair ∈ pairs, pair.1 ≠ [])
    (hsize : (join (lit "&") (pairs.map pairText)).length ≤ maxPostSize) :
    ∃ msvsParams, parseParams (join (lit "&") (pairs.map pairText)) = some msvsParams ∧ Decodes pairs msvsParams := by
  refine (parseParams_iff hnames).2 fun pair hpair => ?_
  have hle := (length_pairText_le hpair).trans hsize
  rw [pairText, length_append, length_cons, length_escaped, length_escaped, maxPostSize] at hle
  constructor <;> omega

/-- pairs with separators in them, and one without a value -/
def samplePairs : List (CString × CString) := [(lit "a&b", lit "1=2 3"), (lit "x", []), (lit "a&b", lit "+%")]

theorem parseParams_sample :
    ∃ msvsParams, parseParams (join (lit "&") (samplePairs.map pairText)) = some msvsParams ∧
      Decodes samplePairs msvsParams :=
  parseParams_decodes (by decide) (by decide +kernel)

/-- a name of 2^32 letters -/
theorem parseParams_fails_at_4GiB :
    ¬∃ msvsParams, parseParams (join (lit "&") ([(List.replicate (2 ^ 32) (ch 'a'), [])].map pairText)) = some msvsParams := by
  have hname : List.replicate (2 ^ 32) (ch 'a') ≠ [] := by
    rw [Ne, replicate_eq_nil_iff]
    decide
  have hlong : ¬Short (List.replicate (2 ^ 32) (ch 'a'), []) := by
    rintro ⟨hshort, -⟩
    have hle := length_le_escapedLength .EURL (List.replicate (2 ^ 32) (ch 'a'))
    rw [length_replicate] at hle
    exact absurd hle (not_le.2 hshort)
  rintro ⟨msvsParams, hread⟩
  rw [parseParams, split_pairs, map_singleton, foldlM_cons, parsePair_eq hname, if_neg hlong] at hread
  cases hread

/-! ## Credentials -/

theorem token_authorization {sText : CString} (hne : sText ≠ []) (hspace : ch ' ' ∉ sText) :
    (lit "Authorization: Basic " ++ sText).token 0 false (ch ' ') false = lit "Authorization:" ∧
      (lit "Authorization: Basic " ++ sText).token 2 false (ch ' ') false = sText := by
  have hfirst : ch ' ' ∉ lit "Authorization:" := by decide
  have hsecond : ch ' ' ∉ lit "Basic" := by decide
  have hfields : fields (ch ' ') (lit "Authorization: Basic " ++ sText) = [lit "Authorization:", lit "Basic", sText] := by
    have hwords : lit "Authorization: Basic " ++ sText = lit "Authorization:" ++ ch ' ' :: (lit "Basic" ++ ch ' ' :: sText) := rfl
    rw [hwords, fields_append hfirst, fields_append hsecond, fields_of_not_mem hspace, if_neg hne, if_neg (by decide),
      if_neg (by decide)]
    rfl
  rw [token_eq_fields, token_eq_fields, hfields]
  exact ⟨rfl, rfl⟩

/-- **What the line of credentials leads to**, also with an end of line behind it. -/
theorem readLine_authorization {s : CHTTPSock} (h : s.bGotHeader = false) (user password : CString) {sEnd : CString}
    (hend : ∀ c ∈ sEnd, c ∈ lit "\r\n") :
    s.readLine (authorization user password ++ sEnd) =
      some { s with
        sUser := (user ++ ch ':' :: password).token 0 false (ch ':') false
        sPass := (user ++ ch ':' :: password).token 1 true (ch ':') false
        bBasicAuth := true } := by
  set sText := base64Encode (user ++ ch ':' :: password) with htext
  have hne : sText ≠ [] := by
    have hlen := length_base64Encode (user ++ ch ':' :: password)
    rw [length_append, length_cons] at hlen
    refine ne_nil_of_length_pos ?_
    rw [hlen]
    omega
  have hletters := mem_base64Encode (user ++ ch ':' :: password)
  have hspace : ch ' ' ∉ sText := fun hmem => (hletters _ hmem).ne.2.2.2.2 rfl
  have hlast : ∀ c ∈ (lit "Authorization: Basic " ++ sText).getLast?, c ∉ lit "\r\n" := by
    intro c hc hmem
    rw [getLast?_append_of_ne_nil _ hne] at hc
    obtain ⟨-, hcr, hlf, -⟩ := (hletters c (mem_of_getLast? hc)).ne
    rcases mem_cons.1 hmem with hmem | hmem
    · exact hcr hmem
    · exact hlf (mem_singleton.1 hmem)
  have hline : (authorization user password ++ sEnd).trimRight_n (lit "\r\n") = lit "Authorization: Basic " ++ sText :=
    trimRight_append hend hlast
  obtain ⟨hname, hcredentials⟩ := token_authorization hne hspace
  have hother : (lit "Authorization:").equals (lit "GET") = false ∧ (lit "Authorization:").equals (lit "POST") = false ∧
      (lit "Authorization:").equals (lit "Cookie:") = false := by decide
  have hgot : ¬s.bGotHeader = true := by rw [h]; exact Bool.false_ne_true
  rw [CHTTPSock.readLine, if_neg hgot]
  simp only [hline, hname, hother, equals_refl, Bool.false_eq_true, if_false, if_true]
  rw [CHTTPSock.readAuthorization, hcredentials, htext, base64Decode_encode]

/-- the credentials that `Token` cuts in the right place -/
def Cut (user password : CString) : Prop :=
  user ≠ [] ∧ password.head? ≠ some (ch ':') ∨ user = [] ∧ password = []

theorem token_cons_colon (s : CString) (uPos : ℕ) (bRest : Bool) :
    CString.token (ch ':' :: s) uPos bRest (ch ':') false = s.token uPos bRest (ch ':') false := by
  have hdrop : (ch ':' :: s).dropWhile (· = ch ':') = s.dropWhile (· = ch ':') :=
    dropWhile_cons_of_pos (decide_eq_true rfl)
  simp only [token, Bool.false_eq_true, if_false, hdrop]

theorem cut_iff {user : CString} (huser : ch ':' ∉ user) (password : CString) :
    (user ++ ch ':' :: password).token 0 false (ch ':') false = user ∧
      (user ++ ch ':' :: password).token 1 true (ch ':') false = password ↔ Cut user password := by
  rw [Cut]
  by_cases hne : user = []
  · subst hne
    rw [nil_append, token_cons_colon, token_cons_colon]
    constructor
    · rintro ⟨-, hpass⟩
      refine .inr ⟨rfl, ?_⟩
      by_contra hpassword
      have hlt := length_token_rest_lt hpassword (ch ':')
      rw [hpass] at hlt
      exact absurd hlt (lt_irrefl _)
    · rintro (⟨hne, -⟩ | ⟨-, rfl⟩)
      · exact absurd rfl hne
      · exact ⟨rfl, rfl⟩
  · rw [token_zero_append hne huser, token_rest hne huser]
    constructor
    · rintro ⟨-, hpass⟩
      refine .inl ⟨hne, fun hhead => ?_⟩
      have hnot := head?_dropWhile_not (· = ch ':') password
      rw [hpass, hhead] at hnot
      simp at hnot
    · rintro (⟨-, hhead⟩ | ⟨hnil, -⟩)
      · refine ⟨rfl, ?_⟩
        cases password with
        | nil => rfl
        | cons c password =>
          have hc : c ≠ ch ':' := fun heq => hhead (by rw [heq]; rfl)
          exact dropWhile_cons_of_neg (by simpa using hc)
      · exact absurd hnil hne

/-- **Basic credentials** come out as they were put in exactly if neither the user is empty nor the password begins with a colon,
or both are empty. -/
theorem authorization_iff {s : CHTTPSock} (h : s.bGotHeader = false) {user : CString} (huser : ch ':' ∉ user)
    (password : CString) {sEnd : CString} (hend : ∀ c ∈ sEnd, c ∈ lit "\r\n") :
    (∃ s', s.readLine (authorization user password ++ sEnd) = some s' ∧ s'.sUser = user ∧ s'.sPass = password) ↔
      Cut user password := by
  rw [readLine_authorization h user password hend, ← cut_iff huser]
  constructor
  · rintro ⟨s', hs', hname, hpass⟩
    obtain rfl := Option.some.inj hs'
    exact ⟨hname, hpass⟩
  · rintro ⟨hname, hpass⟩
    exact ⟨_, rfl, hname, hpass⟩

set_option maxRecDepth 4000 in
theorem authorization_colons : ∃ s', CHTTPSock.init.readLine (authorization (lit "user") (lit "a::b") ++ lit "\r\n") = some s' ∧
    s'.sUser = lit "user" ∧ s'.sPass = lit "a::b" :=
  (authorization_iff rfl (by decide) _ (by decide)).2 (.inl ⟨by decide, by decide⟩)

set_option maxRecDepth 4000 in
/-- a password that begins with a colon -/
theorem authorization_loses :
    ¬∃ s', CHTTPSock.init.readLine (authorization (lit "user") (lit ":a")) = some s' ∧ s'.sPass = lit ":a" := by
  rintro ⟨s', hread, hpass⟩
  have hline := @readLine_authorization CHTTPSock.init rfl (lit "user") (lit ":a") [] (by decide)
  rw [append_nil] at hline
  rw [hline] at hread
  obtain rfl := Option.some.inj hread
  exact absurd hpass (by decide)

end ZNC.HttpRequest
