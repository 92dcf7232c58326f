/-
Round trips of `Escape_n`, and the message-tag decoder against its reference.

Every target format but HEXCOLON writes each byte as a code of its own that the source switch of the same format reads
back whatever follows (`selfDelimiting_escapeTo`); HEXCOLON separates its codes by colons instead and is treated as a
first pair of digits followed by codes that begin with the colon.

Results:
- `escape_round_trip_iff`: for every format and every byte string, escaping and unescaping gives the string back exactly
  when the escaped text is shorter than 2^32 bytes; otherwise one of the two calls never returns;
- `escape_round_trip_fails_at_4GiB`: the string of 2^32 letters is one that does not come back;
- `unescape_msgtag_reference`: on a string whose last escape is complete the MSGTAG decoder is the IRCv3 one with the
  further escape for NUL, adds no byte of its own and never lengthens the string;
- `unescape_msgtag_differs`: the three kinds of string on which it is not the IRCv3 decoder.
-/
import Mathlib.Data.FinEnum
import ZNC.Escape

namespace ZNC

open Codec List

namespace CString

/-! ## Escaping -/

variable (f : EEscape) (c : UInt8) (s : CString)

theorem decodeAll_ascii : decodeAll (unescapeStep .EASCII) s = s := by
  induction s with
  | nil => exact decodeAll_nil _
  | cons b s ih => rw [decodeAll_cons]; simp [unescapeStep, ih]

theorem wellCut_ascii : WellCut (unescapeStep .EASCII) s := by
  induction s with
  | nil => exact wellCut_nil _
  | cons b s ih => rw [wellCut_cons]; exact ⟨Nat.zero_le _, by simpa [unescapeStep] using ih⟩

/-- the escaped text of a byte string -/
def escaped (f : EEscape) (s : CString) : CString := escapeFinish f (s.flatMap (escapeTo f))

theorem escape_n_ascii (f : EEscape) (hs : s.length < 2 ^ 32) :
    escape_n s .EASCII f = some (escaped f s) := by
  rw [escape_n_eq s .EASCII f hs (wellCut_ascii s), decodeAll_ascii, escaped]

/-- how many bytes a byte takes in a format -/
def escapedWidth (f : EEscape) (c : UInt8) : ℕ :=
  match f with
  | .EASCII => 1
  | .EHTML => if c = ch '<' || c = ch '>' then 4 else if c = ch '"' then 6 else if c = ch '&' then 5 else 1
  | .EURL => if isalnum c || c = ch '_' || c = ch '.' || c = ch '-' || c = ch ' ' then 1 else 3
  | .ESQL => if c ∈ [0x00, 0x08, 0x09, 0x0A, 0x0D, ch '"', ch '\'', ch '\\'] then 2 else 1
  | .ENAMEDFMT => if c = ch '\\' || c = ch '{' || c = ch '}' then 2 else 1
  | .EDEBUG => if c < 0x20 || c = 0x7F then 4 else if c = ch '\\' then 2 else 1
  | .EMSGTAG => if c ∈ [ch ';', ch ' ', 0x00, ch '\\', 0x0D, 0x0A] then 2 else 1
  | .EHEXCOLON => 3

/-- the length of the escaped text; HEXCOLON has no colon after the last pair -/
def escapedLength (f : EEscape) (s : CString) : ℕ :=
  (s.map (escapedWidth f)).sum - if f = .EHEXCOLON then 1 else 0

theorem length_escapeTo : (escapeTo f c).length = escapedWidth f c := by
  revert c
  cases f <;> decide +kernel

theorem length_flatMap_escapeTo :
    (s.flatMap (escapeTo f)).length = (s.map (escapedWidth f)).sum := by
  induction s with
  | nil => rfl
  | cons c s ih => rw [flatMap_cons, length_append, length_escapeTo, ih, map_cons, sum_cons]

theorem length_le_sum_escapedWidth : s.length ≤ (s.map (escapedWidth f)).sum := by
  have hpos : ∀ c, 1 ≤ escapedWidth f c := by
    intro c
    cases f with
    | EASCII => exact le_rfl
    | EHEXCOLON => exact Nat.le_add_left 1 2
    | _ =>
      simp only [escapedWidth]
      split_ifs <;> omega
  induction s with
  | nil => exact le_rfl
  | cons c s ih =>
    have := hpos c
    rw [length_cons, map_cons, sum_cons]
    omega

/-! ## The formats with one code a byte -/

theorem hexByte_szHex : ∀ c : UInt8, isxdigit (szHex (c >>> 4)) = true ∧ isxdigit (szHex (c &&& 0xF)) = true ∧
    hexByte (szHex (c >>> 4)) (szHex (c &&& 0xF)) = c := by decide +kernel

theorem hexByte_szHex_lower : ∀ c : UInt8, isxdigit (tolower (szHex (c >>> 4))) = true ∧
    isxdigit (tolower (szHex (c &&& 0xF))) = true ∧
    hexByte (tolower (szHex (c >>> 4))) (tolower (szHex (c &&& 0xF))) = c := by decide +kernel

theorem selfDelimiting_html : SelfDelimiting (escapeTo .EHTML) (unescapeStep .EHTML) := by
  intro c
  simp only [escapeTo]
  split_ifs with h1 h2 h3 h4
  case neg =>
    refine ⟨c, [], rfl, fun l => ?_⟩
    have hd : deref (c :: l) 0 = c := rfl
    simp only [nil_append, length_nil, unescapeStep, unescapeHtml, hd, if_neg h4]
  all_goals
    subst c
    exact ⟨_, _, rfl, fun l => rfl⟩

theorem selfDelimiting_url : SelfDelimiting (escapeTo .EURL) (unescapeStep .EURL) := by
  intro c
  have hplain : ∀ c : UInt8, (isalnum c || c = ch '_' || c = ch '.' || c = ch '-') = true →
      c ≠ ch '%' ∧ c ≠ ch '+' := by
    intro c hc
    constructor
    · intro h
      exact absurd (h ▸ hc) (by decide)
    · intro h
      exact absurd (h ▸ hc) (by decide)
  simp only [escapeTo]
  split_ifs with h1 h2
  · obtain ⟨hp, hq⟩ := hplain c h1
    refine ⟨c, [], rfl, fun l => ?_⟩
    simp [unescapeStep, hp, hq]
  · subst h2
    exact ⟨_, _, rfl, fun l => rfl⟩
  · obtain ⟨hx, hy, hb⟩ := hexByte_szHex c
    refine ⟨_, _, rfl, fun l => ?_⟩
    have hd0 : deref (szHex (c >>> 4) :: szHex (c &&& 0xF) :: l) 0 = szHex (c >>> 4) := rfl
    have hd1 : deref (szHex (c >>> 4) :: szHex (c &&& 0xF) :: l) 1 = szHex (c &&& 0xF) := rfl
    simp [unescapeStep, hd0, hd1, hx, hy, hb]

theorem selfDelimiting_sql : SelfDelimiting (escapeTo .ESQL) (unescapeStep .ESQL) := by
  intro c
  simp only [escapeTo]
  split_ifs with h1 h2 h3 h4 h5 h6 h7 h8
  case neg => exact ⟨c, [], rfl, fun l => by simp [unescapeStep, h8]⟩
  all_goals
    subst c
    exact ⟨_, _, rfl, fun l => rfl⟩

theorem selfDelimiting_namedFmt : SelfDelimiting (escapeTo .ENAMEDFMT) (unescapeStep .ENAMEDFMT) := by
  intro c
  simp only [escapeTo]
  split_ifs with h1 h2 h3
  case neg => exact ⟨c, [], rfl, fun l => by simp [unescapeStep, h1]⟩
  all_goals
    subst c
    exact ⟨_, _, rfl, fun l => rfl⟩

theorem selfDelimiting_debug : SelfDelimiting (escapeTo .EDEBUG) (unescapeStep .EDEBUG) := by
  intro c
  simp only [escapeTo]
  split_ifs with h1 h2
  · obtain ⟨hx, hy, hb⟩ := hexByte_szHex c
    refine ⟨_, _, rfl, fun l => ?_⟩
    have hd0 : deref (ch 'x' :: szHex (c >>> 4) :: szHex (c &&& 0xF) :: l) 0 = ch 'x' := rfl
    have hd1 : deref (ch 'x' :: szHex (c >>> 4) :: szHex (c &&& 0xF) :: l) 1 = szHex (c >>> 4) := rfl
    have hd2 : deref (ch 'x' :: szHex (c >>> 4) :: szHex (c &&& 0xF) :: l) 2 = szHex (c &&& 0xF) := rfl
    simp [unescapeStep, hd0, hd1, hd2, hx, hy, hb]
  · subst h2
    exact ⟨_, _, rfl, fun l => rfl⟩
  · exact ⟨c, [], rfl, fun l => by simp [unescapeStep, h2]⟩

theorem selfDelimiting_msgTag : SelfDelimiting (escapeTo .EMSGTAG) (unescapeStep .EMSGTAG) := by
  intro c
  simp only [escapeTo]
  split_ifs with h1 h2 h3 h4 h5 h6
  case neg => exact ⟨c, [], rfl, fun l => by simp [unescapeStep, h4]⟩
  all_goals
    subst c
    exact ⟨_, _, rfl, fun l => rfl⟩

/-- **Every format but HEXCOLON gives each byte a code of its own** that its source switch reads back. -/
theorem selfDelimiting_escapeTo (hf : f ≠ .EHEXCOLON) : SelfDelimiting (escapeTo f) (unescapeStep f) := by
  cases f with
  | EASCII => exact fun c => ⟨c, [], rfl, fun l => rfl⟩
  | EHTML => exact selfDelimiting_html
  | EURL => exact selfDelimiting_url
  | ESQL => exact selfDelimiting_sql
  | ENAMEDFMT => exact selfDelimiting_namedFmt
  | EDEBUG => exact selfDelimiting_debug
  | EMSGTAG => exact selfDelimiting_msgTag
  | EHEXCOLON => exact absurd rfl hf

/-! ## HEXCOLON -/

/-- the two digits of a byte -/
def hexPair (c : UInt8) : CString := [tolower (szHex (c >>> 4)), tolower (szHex (c &&& 0xF))]

/-- a byte after the first one, with the colon in front of it -/
def colonPair (c : UInt8) : CString := ch ':' :: hexPair c

theorem flatMap_escapeTo_hexColon :
    (c :: s).flatMap (escapeTo .EHEXCOLON) = hexPair c ++ s.flatMap colonPair ++ [ch ':'] := by
  induction s generalizing c with
  | nil => rfl
  | cons d s ih =>
    rw [flatMap_cons, ih d, flatMap_cons]
    simp [escapeTo, hexPair, colonPair]

theorem getLast_hexColon :
    ∃ t d, hexPair c ++ s.flatMap colonPair = t ++ [d] ∧ d ≠ ch ':' := by
  have hdigit : ∀ c : UInt8, tolower (szHex (c &&& 0xF)) ≠ ch ':' := by
    intro c h
    exact absurd (h ▸ (hexByte_szHex_lower c).2.1) (by decide)
  rcases eq_nil_or_concat s with rfl | ⟨s, d, rfl⟩
  · exact ⟨[tolower (szHex (c >>> 4))], _, rfl, hdigit c⟩
  · refine ⟨hexPair c ++ s.flatMap colonPair ++ [ch ':', tolower (szHex (d >>> 4))], _, ?_, hdigit d⟩
    simp [colonPair, hexPair]

theorem escaped_hexColon_cons :
    escaped .EHEXCOLON (c :: s) = hexPair c ++ s.flatMap colonPair := by
  obtain ⟨t, d, ht, hd⟩ := getLast_hexColon c s
  have hcolon : lit ":" = [ch ':'] := rfl
  rw [escaped, flatMap_escapeTo_hexColon, ht, escapeFinish, if_pos rfl, trimRight_n, hcolon]
  simp [hd]

theorem selfDelimiting_colonPair : SelfDelimiting colonPair (unescapeStep .EHEXCOLON) := by
  intro c
  obtain ⟨hx, hy, hb⟩ := hexByte_szHex_lower c
  refine ⟨ch ':', hexPair c, rfl, fun l => ?_⟩
  have hcolon : isxdigit (ch ':') = false := rfl
  have hlen : l.length + 1 + 1 - l.length = 2 := by omega
  simp [unescapeStep, hexPair, hcolon, hx, hy, hb, hlen]

theorem decodeAll_hexColon : decodeAll (unescapeStep .EHEXCOLON) (escaped .EHEXCOLON s) = s ∧
    WellCut (unescapeStep .EHEXCOLON) (escaped .EHEXCOLON s) := by
  cases s with
  | nil => exact ⟨decodeAll_nil _, wellCut_nil _⟩
  | cons c s =>
    obtain ⟨hx, hy, hb⟩ := hexByte_szHex_lower c
    have hstep : unescapeStep .EHEXCOLON (tolower (szHex (c >>> 4)))
        (tolower (szHex (c &&& 0xF)) :: s.flatMap colonPair) = (some c, 1) := by
      simp [unescapeStep, hx, hy, hb]
    have hall := decodeAll_flatMap selfDelimiting_colonPair s []
    have hcut := wellCut_flatMap selfDelimiting_colonPair s [] (wellCut_nil _)
    rw [append_nil] at hall hcut
    rw [escaped_hexColon_cons, hexPair, cons_append, cons_append, nil_append, decodeAll_cons, wellCut_cons, hstep]
    refine ⟨?_, by simp, hcut⟩
    simp [hall, decodeAll_nil]

/-! ## The round trip -/

theorem decodeAll_escaped : decodeAll (unescapeStep f) (escaped f s) = s ∧
    WellCut (unescapeStep f) (escaped f s) := by
  by_cases hf : f = .EHEXCOLON
  · subst hf
    exact decodeAll_hexColon s
  · have hd := selfDelimiting_escapeTo f hf
    have hall := decodeAll_flatMap hd s []
    have hcut := wellCut_flatMap hd s [] (wellCut_nil _)
    rw [decodeAll_nil, append_nil, append_nil] at hall
    rw [append_nil] at hcut
    rw [escaped, escapeFinish, if_neg hf]
    exact ⟨hall, hcut⟩

theorem length_escaped : (escaped f s).length = escapedLength f s := by
  unfold escapedLength
  rw [← length_flatMap_escapeTo]
  by_cases hf : f = .EHEXCOLON
  · subst hf
    cases s with
    | nil => rfl
    | cons c s =>
      rw [escaped_hexColon_cons, flatMap_escapeTo_hexColon, @length_append _ _ [ch ':'], if_pos rfl]
      rfl
  · rw [if_neg hf, escaped, escapeFinish, if_neg hf]
    rfl

theorem length_le_escapedLength : s.length ≤ escapedLength f s := by
  have hsum := length_le_sum_escapedWidth f s
  unfold escapedLength
  split_ifs with hf
  · subst hf
    have hwidth : (s.map (escapedWidth .EHEXCOLON)).sum = 3 * s.length := by
      induction s with
      | nil => rfl
      | cons c s ih =>
        rw [map_cons, sum_cons, ih (length_le_sum_escapedWidth _ s), length_cons, escapedWidth]
        omega
    omega
  · exact hsum

theorem flatMap_escapeTo_ascii : s.flatMap (escapeTo .EASCII) = s := by
  induction s with
  | nil => rfl
  | cons c s ih => rw [flatMap_cons, ih]; rfl

theorem escape_n_escaped (hs : escapedLength f s < 2 ^ 32) :
    escape_n (escaped f s) f .EASCII = some s := by
  obtain ⟨hall, hcut⟩ := decodeAll_escaped f s
  rw [escape_n_eq _ f .EASCII (by rw [length_escaped]; exact hs) hcut, hall, flatMap_escapeTo_ascii]
  rfl

theorem escape_n_isSome_iff (f : EEscape) : (escape_n s .EASCII f).isSome ↔ s.length < 2 ^ 32 := by
  constructor
  · intro h
    by_contra hn
    rw [escape_n, escape_n_none s .EASCII f (not_lt.1 hn)] at h
    exact absurd h (by decide)
  · intro h
    rw [escape_n_ascii s f h]
    rfl

/-- **Round trip.** Escaping to any format and back gives the string back exactly when the escaped text is shorter than
2^32 bytes; from there on one of the two calls does not return. -/
theorem escape_round_trip_iff (f : EEscape) (s : CString) :
    (∃ t, escape_n s .EASCII f = some t ∧ escape_n t f .EASCII = some s) ↔ escapedLength f s < 2 ^ 32 := by
  constructor
  · rintro ⟨t, ht, hback⟩
    have hs : s.length < 2 ^ 32 := (escape_n_isSome_iff s f).1 (by rw [ht]; rfl)
    rw [escape_n_ascii s f hs, Option.some_inj] at ht
    subst ht
    by_contra hn
    rw [escape_n, escape_n_none _ f .EASCII (by rw [length_escaped]; exact not_lt.1 hn)] at hback
    exact absurd hback (by simp)
  · intro h
    have hs : s.length < 2 ^ 32 := lt_of_le_of_lt (length_le_escapedLength f s) h
    exact ⟨escaped f s, escape_n_ascii s f hs, escape_n_escaped f s h⟩

/-- 2^32 letters cannot even be escaped -/
theorem escape_round_trip_fails_at_4GiB :
    ¬ ∃ t, escape_n (List.replicate (2 ^ 32) (ch 'a')) .EASCII .EURL = some t ∧
      escape_n t .EURL .EASCII = some (List.replicate (2 ^ 32) (ch 'a')) := by
  rintro ⟨t, ht, -⟩
  rw [escape_n, escape_n_none _ _ _ (by rw [length_replicate])] at ht
  exact absurd ht (by simp)

/-! ## The message-tag decoder -/

/-- the byte that a backslash and `c` stand for in a message tag: the IRCv3 table, any other byte for itself -/
def ircv3Pair (c : UInt8) : UInt8 :=
  if c = ch ':' then ch ';'
  else if c = ch 's' then ch ' '
  else if c = ch 'r' then 0x0D
  else if c = ch 'n' then 0x0A
  else c

/-- the same with the further escape `\0` for NUL -/
def zncPair (c : UInt8) : UInt8 := if c = ch '0' then 0x00 else ircv3Pair c

/-- the reference decoder over a table of pairs; a lone backslash at the end is dropped -/
def decodeTag (pair : UInt8 → UInt8) : CString → CString
  | [] => []
  | [c] => if c = ch '\\' then [] else [c]
  | b :: c :: l => if b = ch '\\' then pair c :: decodeTag pair l else b :: decodeTag pair (c :: l)

/-- the last byte is a backslash that escapes nothing -/
def loneBackslash : CString → Bool
  | [] => false
  | [c] => c = ch '\\'
  | b :: c :: l => if b = ch '\\' then loneBackslash l else loneBackslash (c :: l)

theorem unescapeMsgTag_eq : unescapeMsgTag c = zncPair c := by
  have hdiff : ch '0' ≠ ch ':' ∧ ch '0' ≠ ch 's' ∧ ch '\\' ≠ ch 'r' ∧ ch '\\' ≠ ch 'n' := by decide
  simp only [unescapeMsgTag, zncPair, ircv3Pair]
  split_ifs <;> simp_all

theorem decodeAll_msgTag (h : loneBackslash s = false) :
    WellCut (unescapeStep .EMSGTAG) s ∧ decodeAll (unescapeStep .EMSGTAG) s = decodeTag zncPair s := by
  fun_induction loneBackslash s with
  | case1 => exact ⟨wellCut_nil _, decodeAll_nil _⟩
  | case2 c =>
    have hc : c ≠ ch '\\' := by simpa using h
    have hstep : unescapeStep .EMSGTAG c [] = (some c, 0) := if_pos hc
    rw [wellCut_cons, decodeAll_cons, hstep, decodeTag, if_neg hc]
    exact ⟨⟨le_rfl, wellCut_nil _⟩, by simp [decodeAll_nil]⟩
  | case3 c l ih =>
    obtain ⟨hcut, hdec⟩ := ih h
    have hstep : unescapeStep .EMSGTAG (ch '\\') (c :: l) = (some (unescapeMsgTag c), 1) := rfl
    rw [wellCut_cons, decodeAll_cons, hstep, decodeTag, if_pos rfl, ← unescapeMsgTag_eq, ← hdec]
    exact ⟨⟨by simp, hcut⟩, rfl⟩
  | case4 b c l hb ih =>
    obtain ⟨hcut, hdec⟩ := ih h
    have hstep : unescapeStep .EMSGTAG b (c :: l) = (some b, 0) := if_pos hb
    rw [wellCut_cons, decodeAll_cons, hstep, decodeTag, if_neg hb, ← hdec]
    exact ⟨⟨Nat.zero_le _, hcut⟩, rfl⟩

/-- the bytes that the decoder can bring in -/
def tagTable : List UInt8 := [ch ';', ch ' ', ch '\\', 0x0D, 0x0A, 0x00]

theorem mem_decodeTag : ∀ c ∈ decodeTag zncPair s, c ∈ s ∨ c ∈ tagTable := by
  have hpair : ∀ c : UInt8, zncPair c = c ∨ zncPair c ∈ tagTable := by
    intro c
    simp only [zncPair, ircv3Pair]
    split_ifs <;> simp [tagTable]
  fun_induction decodeTag zncPair s with
  | case1 => intro c hc; exact .inl hc
  | case2 => intro c hc; simp at hc
  | case3 b hb => intro c hc; exact .inl hc
  | case4 c l ih =>
    intro d hd
    rcases mem_cons.1 hd with rfl | hd
    · rcases hpair c with h | h
      · rw [h]; exact .inl (by simp)
      · exact .inr h
    · exact (ih d hd).imp (fun h => by simp [h]) id
  | case5 b c l hb ih =>
    intro d hd
    rcases mem_cons.1 hd with rfl | hd
    · exact .inl (by simp)
    · exact (ih d hd).imp (mem_cons_of_mem b) id

theorem length_decodeTag_le (pair : UInt8 → UInt8) (s : CString) : (decodeTag pair s).length ≤ s.length := by
  fun_induction decodeTag pair s with
  | case1 => exact le_rfl
  | case2 => exact Nat.zero_le _
  | case3 => exact le_rfl
  | case4 c l ih => simp only [length_cons]; omega
  | case5 b c l hb ih => simp only [length_cons] at ih ⊢; omega

/-- **The message-tag decoder.** Below 2^32 bytes and with the last escape complete, `Escape_n` from MSGTAG returns the
reference decoding; it brings in the bytes of the table only and never lengthens the string. -/
theorem unescape_msgtag_reference (s : CString) (hs : s.length < 2 ^ 32) (hlone : loneBackslash s = false) :
    escape_n s .EMSGTAG .EASCII = some (decodeTag zncPair s) ∧
      (∀ c ∈ decodeTag zncPair s, c ∈ s ∨ c ∈ tagTable) ∧ (decodeTag zncPair s).length ≤ s.length := by
  obtain ⟨hcut, hdec⟩ := decodeAll_msgTag s hlone
  refine ⟨?_, mem_decodeTag s, length_decodeTag_le zncPair s⟩
  rw [escape_n_eq s .EMSGTAG .EASCII hs hcut, hdec, flatMap_escapeTo_ascii]
  rfl

/-- all escapes of the table, an unknown one and a plain byte -/
theorem unescape_msgtag_reference_sample :
    escape_n (lit "\\:\\s\\\\\\r\\n\\0\\xy") .EMSGTAG .EASCII =
      some [ch ';', ch ' ', ch '\\', 0x0D, 0x0A, 0x00, ch 'x', ch 'y'] :=
  (unescape_msgtag_reference (lit "\\:\\s\\\\\\r\\n\\0\\xy") (by decide) (by decide)).1

/-- the IRCv3 decoder keeps the digit of `\0` and drops a lone backslash; both become NUL, which is neither in the string
nor in the IRCv3 table. A string of 2^32 bytes is never decoded. -/
theorem unescape_msgtag_differs :
    (escape_n (lit "\\0") .EMSGTAG .EASCII = some [0x00] ∧ decodeTag ircv3Pair (lit "\\0") = lit "0") ∧
      (escape_n (lit "\\") .EMSGTAG .EASCII = some [0x00] ∧ decodeTag ircv3Pair (lit "\\") = []) ∧
      escape_n (List.replicate (2 ^ 32) (ch 'a')) .EMSGTAG .EASCII = none :=
  ⟨by decide, by decide, by rw [escape_n, escape_n_none _ _ _ (by rw [length_replicate])]⟩

end CString

end ZNC
