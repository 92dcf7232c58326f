/-
`CString::Escape_n` of `src/ZNCString.cpp`: the conversion between ASCII, HTML, URL, SQL, NAMEDFMT, DEBUG, MSGTAG and
HEXCOLON text.

The C++ function is one loop over an `unsigned int` counter: a first `switch` reads a byte at the counter in the source
format and may move the counter, a second one writes the byte in the target format. `escapeFrom` and `escapeTo` are the
two switches, `escape_n` the loop. The bound of the loop is the `size_t` length of the string, so for a string of 2^32
bytes or more the counter never reaches it: the result is `none`, the loop does not end.

Results:
- `escape_n_none`: no result from 2^32 bytes on, whatever the fuel;
- `escapeFrom_eq`: the first switch is the decoder step `unescapeStep` on the rest of the string, the counter apart;
- `escape_n_eq`: below 2^32 bytes the function is `decodeAll` of that step followed by the second switch.
-/
import ZNC.Lib.Codec
import ZNC.CString

namespace ZNC

open Codec List

inductive EEscape where
  | EASCII
  | EURL
  | EHTML
  | ESQL
  | ENAMEDFMT
  | EDEBUG
  | EMSGTAG
  | EHEXCOLON
deriving DecidableEq, Repr

namespace CString

/-! ## The first switch: reading a byte -/

/-- `strnchr(src, c, iMaxBytes, pFill, piCount)`: the bytes up to and including the first `c`, and its index -/
def strnchr (c : UInt8) : CString → ℕ → Option (CString × ℕ)
  | [], _ => none
  | _ :: _, 0 => none
  | b :: src, n + 1 =>
    if b = 0 then none
    else if b = c then some ([b], 0)
    else (strnchr c src n).map fun r => (b :: r.1, r.2 + 1)

/-- the value of a digit in base 10 or 16, as `strtol` reads it -/
def digitValue (base : ℕ) (c : UInt8) : Option ℕ :=
  if isdigit c then some (c.toNat - 48)
  else if isxdigit c && base = 16 then some ((tolower c).toNat - 87)
  else none

/-- the digits at the head of a text: value, how many, and what follows -/
def strtolDigits (base : ℕ) : CString → ℕ → ℕ → ℕ × ℕ × CString
  | [], v, n => (v, n, [])
  | c :: s, v, n =>
    match digitValue base c with
    | some d => strtolDigits base s (v * base + d) (n + 1)
    | none => (v, n, c :: s)

/-- `strtol(nptr, &endptr, base)` for base 10 and 16: the value and the text at `endptr`. The clamping at the bounds of
`long` is left out: the callers' texts hold at most 17 digits and are compared with 255. -/
def strtol (nptr : CString) (base : ℕ) : ℤ × CString :=
  let s := nptr.dropWhile isspace
  let (neg, s) :=
    match s with
    | c :: t => if c = ch '-' then (true, t) else if c = ch '+' then (false, t) else (false, s)
    | [] => (false, s)
  -- a prefix 0x belongs to the number only if a hex digit follows it
  let s :=
    if base = 16 && deref s 0 = ch '0' && tolower (deref s 1) = ch 'x' && isxdigit (deref s 2) then s.drop 2 else s
  match strtolDigits base s 0 0 with
  | (_, 0, _) => (0, nptr)
  | (v, _ + 1, endptr) => (if neg then - (v : ℤ) else v, endptr)

/-- `case EHTML`: a numeric or named entity of at most 20 bytes, else the byte itself; with how far `a` moves -/
def unescapeHtml (p : CString) : UInt8 × ℕ :=
  if deref p 0 = ch '&' then
    match strnchr (ch ';') p 20 with
    | none => (deref p 0, 0)
    | some (pTmp, iCounted) =>
      let base := if deref pTmp 2 &&& 0xDF = ch 'X' then 16 else 10
      let (b, endptr) := strtol (pTmp.drop (2 + if base = 16 then 1 else 0)) base
      if iCounted ≥ 3 && deref pTmp 1 = ch '#' && deref endptr 0 = ch ';' && 0 ≤ b && b ≤ 255 then
        (UInt8.ofNat b.toNat, iCounted)
      else if strncasecmp pTmp (lit "&lt;") 4 then (ch '<', iCounted)
      else if strncasecmp pTmp (lit "&gt;") 4 then (ch '>', iCounted)
      else if strncasecmp pTmp (lit "&quot;") 6 then (ch '"', iCounted)
      else if strncasecmp pTmp (lit "&amp;") 5 then (ch '&', iCounted)
      else (deref p 0, 0)
  else (deref p 0, 0)

/-- the four bits of a hex digit -/
def hexValue (c : UInt8) : UInt8 := if isdigit c then c - ch '0' else tolower c - ch 'a' + 10

/-- the byte of two hex digits -/
def hexByte (c d : UInt8) : UInt8 := hexValue c <<< 4 ||| hexValue d

/-- `case ESQL`, the byte after a backslash -/
def unescapeSql (c : UInt8) : UInt8 :=
  if c = ch 'n' then 0x0A
  else if c = ch 'r' then 0x0D
  else if c = ch '0' then 0x00
  else if c = ch 't' then 0x09
  else if c = ch 'b' then 0x08
  else c

/-- `case EMSGTAG`, the byte after a backslash -/
def unescapeMsgTag (c : UInt8) : UInt8 :=
  if c = ch ':' then ch ';'
  else if c = ch 's' then ch ' '
  else if c = ch '0' then 0x00
  else if c = ch '\\' then ch '\\'
  else if c = ch 'r' then 0x0D
  else if c = ch 'n' then 0x0A
  else c

/-- `while (!isxdigit(*p) && a < iLength) { a++; p++; }` -/
def skipNonHex (iLength : ℕ) : UInt32 → CString → UInt32 × CString
  | a, [] => (a, [])
  | a, c :: p => if !isxdigit c && a.toNat < iLength then skipNonHex iLength (a + 1) p else (a, c :: p)

/-- the first `switch`, at counter `a` with `p = pStart + a`: the byte read and the counter it leaves; no byte stands for
the `continue` of `EHEXCOLON` -/
def escapeFrom (eFrom : EEscape) (iLength : ℕ) (a : UInt32) (p : CString) : Option UInt8 × UInt32 :=
  match eFrom with
  | .EHTML => (some (unescapeHtml p).1, a + UInt32.ofNat (unescapeHtml p).2)
  | .EASCII => (some (deref p 0), a)
  | .EURL =>
    if deref p 0 = ch '%' && (a + 2).toNat < iLength && isxdigit (deref p 1) && isxdigit (deref p 2) then
      (some (hexByte (deref p 1) (deref p 2)), a + 2)
    else if deref p 0 = ch '+' then (some (ch ' '), a)
    else (some (deref p 0), a)
  | .ESQL =>
    if deref p 0 ≠ ch '\\' || iLength < (a + 1).toNat then (some (deref p 0), a)
    else (some (unescapeSql (deref p 1)), a + 1)
  | .ENAMEDFMT =>
    if deref p 0 ≠ ch '\\' || iLength < (a + 1).toNat then (some (deref p 0), a)
    else (some (deref p 1), a + 1)
  | .EDEBUG =>
    if deref p 0 = ch '\\' && (a + 3).toNat < iLength && deref p 1 = ch 'x' && isxdigit (deref p 2) &&
        isxdigit (deref p 3) then
      (some (hexByte (deref p 2) (deref p 3)), a + 3)
    else if deref p 0 = ch '\\' && (a + 1).toNat < iLength && deref p 1 = ch '.' then (some (ch '\\'), a + 1)
    else (some (deref p 0), a)
  | .EMSGTAG =>
    if deref p 0 ≠ ch '\\' || iLength < (a + 1).toNat then (some (deref p 0), a)
    else (some (unescapeMsgTag (deref p 1)), a + 1)
  | .EHEXCOLON =>
    let (a, p) := skipNonHex iLength a p
    if a.toNat = iLength then (none, a)
    else
      let c := deref p 0
      let (a, p) := skipNonHex iLength (a + 1) (p.drop 1)
      if a.toNat = iLength then (none, a) else (some (hexByte c (deref p 0)), a)

/-! ## The second switch: writing a byte -/

def szHex (n : UInt8) : UInt8 := deref (lit "0123456789ABCDEF") n.toNat

/-- the second `switch` -/
def escapeTo (eTo : EEscape) (c : UInt8) : CString :=
  match eTo with
  | .EHTML =>
    if c = ch '<' then lit "&lt;"
    else if c = ch '>' then lit "&gt;"
    else if c = ch '"' then lit "&quot;"
    else if c = ch '&' then lit "&amp;"
    else [c]
  | .EASCII => [c]
  | .EURL =>
    if isalnum c || c = ch '_' || c = ch '.' || c = ch '-' then [c]
    else if c = ch ' ' then [ch '+']
    else [ch '%', szHex (c >>> 4), szHex (c &&& 0xF)]
  | .ESQL =>
    if c = 0x00 then [ch '\\', ch '0']
    else if c = 0x0A then [ch '\\', ch 'n']
    else if c = 0x09 then [ch '\\', ch 't']
    else if c = 0x0D then [ch '\\', ch 'r']
    else if c = 0x08 then [ch '\\', ch 'b']
    else if c = ch '"' then [ch '\\', ch '"']
    else if c = ch '\'' then [ch '\\', ch '\'']
    else if c = ch '\\' then [ch '\\', ch '\\']
    else [c]
  | .ENAMEDFMT =>
    if c = ch '\\' then [ch '\\', ch '\\']
    else if c = ch '{' then [ch '\\', ch '{']
    else if c = ch '}' then [ch '\\', ch '}']
    else [c]
  | .EDEBUG =>
    if c < 0x20 || c = 0x7F then [ch '\\', ch 'x', szHex (c >>> 4), szHex (c &&& 0xF)]
    else if c = ch '\\' then [ch '\\', ch '.']
    else [c]
  | .EMSGTAG =>
    if c = ch ';' then [ch '\\', ch ':']
    else if c = ch ' ' then [ch '\\', ch 's']
    else if c = 0x00 then [ch '\\', ch '0']
    else if c = ch '\\' then [ch '\\', ch '\\']
    else if c = 0x0D then [ch '\\', ch 'r']
    else if c = 0x0A then [ch '\\', ch 'n']
    else [c]
  | .EHEXCOLON => [tolower (szHex (c >>> 4)), tolower (szHex (c &&& 0xF)), ch ':']

/-- what is done to `sRet` after the loop -/
def escapeFinish (eTo : EEscape) (sRet : CString) : CString :=
  if eTo = .EHEXCOLON then sRet.trimRight_n (lit ":") else sRet

/-! ## The loop -/

/-- one round of the loop: what is appended to `sRet` and the counter left to `a++` -/
def escapeBody (eFrom eTo : EEscape) (s : CString) (a : UInt32) : CString × UInt32 :=
  ((escapeFrom eFrom s.length a (s.drop a.toNat)).1.toList.flatMap (escapeTo eTo),
    (escapeFrom eFrom s.length a (s.drop a.toNat)).2)

/-- the function with a bound on the rounds of its loop -/
def escape_nFuel (fuel : ℕ) (s : CString) (eFrom eTo : EEscape) : Option CString :=
  (countedLoop (escapeBody eFrom eTo s) s.length fuel 0 []).map (escapeFinish eTo)

/-- `Escape_n(eFrom, eTo)`; `none` when the loop does not end -/
def escape_n (s : CString) (eFrom eTo : EEscape) : Option CString := escape_nFuel (s.length + 1) s eFrom eTo

/-- **From 2^32 bytes on there is no result**: the 32-bit counter never reaches the length. -/
theorem escape_n_none (s : CString) (eFrom eTo : EEscape) (hs : 2 ^ 32 ≤ s.length) (fuel : ℕ) :
    escape_nFuel fuel s eFrom eTo = none := by
  rw [escape_nFuel, countedLoop_none _ _ hs, Option.map_none]

/-! ## The first switch as a decoder step -/

/-- the first `switch` on the rest `b :: l` of the string, without the counter: the byte read and how far it moves -/
def unescapeStep (eFrom : EEscape) (b : UInt8) (l : CString) : Option UInt8 × ℕ :=
  match eFrom with
  | .EHTML => (some (unescapeHtml (b :: l)).1, (unescapeHtml (b :: l)).2)
  | .EASCII => (some b, 0)
  | .EURL =>
    if b = ch '%' && isxdigit (deref l 0) && isxdigit (deref l 1) then (some (hexByte (deref l 0) (deref l 1)), 2)
    else if b = ch '+' then (some (ch ' '), 0)
    else (some b, 0)
  | .ESQL => if b ≠ ch '\\' then (some b, 0) else (some (unescapeSql (deref l 0)), 1)
  | .ENAMEDFMT => if b ≠ ch '\\' then (some b, 0) else (some (deref l 0), 1)
  | .EDEBUG =>
    if b = ch '\\' && deref l 0 = ch 'x' && isxdigit (deref l 1) && isxdigit (deref l 2) then
      (some (hexByte (deref l 1) (deref l 2)), 3)
    else if b = ch '\\' && deref l 0 = ch '.' then (some (ch '\\'), 1)
    else (some b, 0)
  | .EMSGTAG => if b ≠ ch '\\' then (some b, 0) else (some (unescapeMsgTag (deref l 0)), 1)
  | .EHEXCOLON =>
    match (b :: l).dropWhile (fun c => !isxdigit c) with
    | [] => (none, l.length + 1)
    | c :: t =>
      match t.dropWhile (fun c => !isxdigit c) with
      | [] => (none, l.length + 1)
      | d :: t' => (some (hexByte c d), l.length - t'.length)

theorem deref_of_le {p : CString} {i : ℕ} (h : p.length ≤ i) : deref p i = 0 := by
  rw [deref, getD_eq_getElem?_getD, getElem?_eq_none h]; rfl

theorem lt_length_of_isxdigit {p : CString} {i : ℕ} (h : isxdigit (deref p i) = true) : i < p.length := by
  by_contra hn
  rw [deref_of_le (not_lt.1 hn)] at h
  exact absurd h (by decide)

theorem skipNonHex_spec (iLength : ℕ) (hL : iLength < 2 ^ 32) (p : CString) (a : UInt32)
    (ha : a.toNat + p.length = iLength) :
    (skipNonHex iLength a p).2 = p.dropWhile (fun c => !isxdigit c) ∧
      (skipNonHex iLength a p).1.toNat + (skipNonHex iLength a p).2.length = iLength := by
  induction p generalizing a with
  | nil => exact ⟨rfl, ha⟩
  | cons c p ih =>
    rw [length_cons] at ha
    have hlt : a.toNat < iLength := by omega
    rw [skipNonHex]
    by_cases hc : isxdigit c = true
    · simp only [hc, Bool.not_true, Bool.false_and, Bool.false_eq_true, if_false, dropWhile_cons]
      exact ⟨trivial, by rw [length_cons]; omega⟩
    · have hstep : (a + 1).toNat + p.length = iLength := by
        rw [UInt32.toNat_add, UInt32.toNat_one, Nat.mod_eq_of_lt (by omega)]; omega
      simp only [hc, Bool.not_false, Bool.true_and, decide_eq_true hlt, if_true, dropWhile_cons]
      exact ih (a + 1) hstep

theorem toNat_counter_add {iLength : ℕ} (hL : iLength < 2 ^ 32) {a : UInt32} {k : ℕ} (h : a.toNat + k ≤ iLength) :
    (a + UInt32.ofNat k).toNat = a.toNat + k := by
  rw [UInt32.toNat_add, UInt32.toNat_ofNat', Nat.mod_eq_of_lt (a := k) (by omega), Nat.mod_eq_of_lt (by omega)]

theorem counter_eq_of_toNat {iLength : ℕ} (hL : iLength < 2 ^ 32) {a c : UInt32} {k : ℕ} (hk : a.toNat + k ≤ iLength)
    (h : c.toNat = a.toNat + k) : c = a + UInt32.ofNat k :=
  UInt32.toNat_inj.1 (h.trans (toNat_counter_add hL hk).symm)

theorem escapeFrom_hexColon (iLength : ℕ) (hL : iLength < 2 ^ 32) (a : UInt32) (b : UInt8) (l : CString)
    (ha : a.toNat + (l.length + 1) = iLength) :
    escapeFrom .EHEXCOLON iLength a (b :: l) =
      ((unescapeStep .EHEXCOLON b l).1, a + UInt32.ofNat (unescapeStep .EHEXCOLON b l).2) := by
  obtain ⟨hp1, hc1⟩ := skipNonHex_spec iLength hL (b :: l) a (by rw [length_cons]; exact ha)
  simp only [escapeFrom, unescapeStep]
  rw [hp1] at hc1 ⊢
  cases h1 : (b :: l).dropWhile (fun c => !isxdigit c) with
  | nil =>
    -- no digit is left: the counter stands at the end
    rw [h1, length_nil, Nat.add_zero] at hc1
    rw [if_pos hc1]
    simp only [Prod.mk.injEq, true_and]
    exact counter_eq_of_toNat hL ha.le (hc1.trans ha.symm)
  | cons c t =>
    rw [h1, length_cons] at hc1
    set a1 := (skipNonHex iLength a (b :: l)).1 with ha1
    have hne : ¬ a1.toNat = iLength := by omega
    rw [if_neg hne]
    have hstep : (a1 + 1).toNat = a1.toNat + 1 := toNat_counter_add (k := 1) hL (by omega)
    obtain ⟨hp2, hc2⟩ := skipNonHex_spec iLength hL t (a1 + 1) (by omega)
    simp only [drop_succ_cons, drop_zero]
    rw [hp2] at hc2 ⊢
    cases h2 : t.dropWhile (fun c => !isxdigit c) with
    | nil =>
      rw [h2, length_nil, Nat.add_zero] at hc2
      rw [if_pos hc2]
      simp only [Prod.mk.injEq, true_and]
      exact counter_eq_of_toNat hL ha.le (hc2.trans ha.symm)
    | cons d t' =>
      rw [h2, length_cons] at hc2
      rw [if_neg (by omega)]
      have ht : t.length ≤ l.length := by
        simpa [h1] using (dropWhile_suffix (fun c => !isxdigit c) (l := b :: l)).length_le
      have ht' : t'.length + 1 ≤ t.length := by
        simpa [h2] using (dropWhile_suffix (fun c => !isxdigit c) (l := t)).length_le
      simp only [Prod.mk.injEq]
      exact ⟨rfl, counter_eq_of_toNat hL (by omega) (by omega)⟩

theorem escapeFrom_eq (eFrom : EEscape) (iLength : ℕ) (hL : iLength < 2 ^ 32) (a : UInt32) (b : UInt8) (l : CString)
    (ha : a.toNat + (l.length + 1) = iLength) :
    escapeFrom eFrom iLength a (b :: l) =
      ((unescapeStep eFrom b l).1, a + UInt32.ofNat (unescapeStep eFrom b l).2) := by
  have hzero : a + UInt32.ofNat 0 = a := by simp
  -- the guard `iLength < a + 1` of the backslash formats never holds
  have hguard : ¬ iLength < (a + 1).toNat := by
    rw [show (1 : UInt32) = UInt32.ofNat 1 from rfl, toNat_counter_add hL (by omega)]; omega
  have hd : ∀ i, deref (b :: l) (i + 1) = deref l i := fun _ => rfl
  have hd0 : deref (b :: l) 0 = b := rfl
  cases eFrom with
  | EHTML => rfl
  | EASCII => simp only [escapeFrom, unescapeStep, hd0, hzero]
  | EURL =>
    have hlook : ((a + 2).toNat < iLength && isxdigit (deref l 0) && isxdigit (deref l 1)) =
        (isxdigit (deref l 0) && isxdigit (deref l 1)) := by
      by_cases hx : isxdigit (deref l 1) = true
      · have := lt_length_of_isxdigit hx
        have h2 : (a + 2).toNat < iLength := by
          rw [show (2 : UInt32) = UInt32.ofNat 2 from rfl, toNat_counter_add hL (by omega)]; omega
        rw [decide_eq_true h2, Bool.true_and]
      · simp [hx]
    simp only [escapeFrom, unescapeStep, hd, hd0, Bool.and_assoc] at hlook ⊢
    rw [hlook]
    split_ifs
    · rfl
    · rw [hzero]
    · rw [hzero]
  | ESQL =>
    simp only [escapeFrom, unescapeStep, hd, hd0, decide_eq_false hguard, Bool.or_false, decide_eq_true_eq]
    split_ifs
    · rw [hzero]
    · rfl
  | ENAMEDFMT =>
    simp only [escapeFrom, unescapeStep, hd, hd0, decide_eq_false hguard, Bool.or_false, decide_eq_true_eq]
    split_ifs
    · rw [hzero]
    · rfl
  | EMSGTAG =>
    simp only [escapeFrom, unescapeStep, hd, hd0, decide_eq_false hguard, Bool.or_false, decide_eq_true_eq]
    split_ifs
    · rw [hzero]
    · rfl
  | EDEBUG =>
    have hlook : ((a + 3).toNat < iLength && deref l 0 = ch 'x' && isxdigit (deref l 1) && isxdigit (deref l 2)) =
        (deref l 0 = ch 'x' && isxdigit (deref l 1) && isxdigit (deref l 2)) := by
      by_cases hx : isxdigit (deref l 2) = true
      · have := lt_length_of_isxdigit hx
        have h3 : (a + 3).toNat < iLength := by
          rw [show (3 : UInt32) = UInt32.ofNat 3 from rfl, toNat_counter_add hL (by omega)]; omega
        rw [decide_eq_true h3, Bool.true_and]
      · simp [hx]
    have hdot : ((a + 1).toNat < iLength && deref l 0 = ch '.') = (deref l 0 = ch '.' : Bool) := by
      by_cases hx : deref l 0 = ch '.'
      · have hl : l ≠ [] := by rintro rfl; exact absurd hx (by decide)
        have := length_pos_iff.2 hl
        have h1 : (a + 1).toNat < iLength := by
          rw [show (1 : UInt32) = UInt32.ofNat 1 from rfl, toNat_counter_add hL (by omega)]; omega
        rw [decide_eq_true h1, Bool.true_and]
      · simp [hx]
    simp only [escapeFrom, unescapeStep, hd, hd0, Bool.and_assoc] at hlook hdot ⊢
    rw [hlook, hdot]
    split_ifs
    · rfl
    · rfl
    · rw [hzero]
  | EHEXCOLON => exact escapeFrom_hexColon iLength hL a b l ha

/-- **`Escape_n` decodes and encodes again**: below 2^32 bytes, if no code is cut off by the end of the string, the loop
ends, having read the string by the decoder step of the source format and written each byte in the target format. -/
theorem escape_n_eq (s : CString) (eFrom eTo : EEscape) (hs : s.length < 2 ^ 32)
    (hcut : WellCut (unescapeStep eFrom) s) :
    escape_n s eFrom eTo = some (escapeFinish eTo ((decodeAll (unescapeStep eFrom) s).flatMap (escapeTo eTo))) := by
  have hbody : ∀ (a : UInt32) (b : UInt8) (l : CString), s.drop a.toNat = b :: l →
      escapeBody eFrom eTo s a = ((unescapeStep eFrom b l).1.toList.flatMap (escapeTo eTo),
        a + UInt32.ofNat (unescapeStep eFrom b l).2) := by
    intro a b l hdrop
    have hlen := congrArg List.length hdrop
    rw [length_drop, length_cons] at hlen
    rw [escapeBody, hdrop, escapeFrom_eq eFrom s.length hs a b l (by omega)]
  have h := countedLoop_eq (unescapeStep eFrom) (escapeTo eTo) (escapeBody eFrom eTo s) s hs hbody s 0 [] (s.length + 1)
    rfl (by simp) hcut (by omega)
  rw [escape_n, escape_nFuel, h]
  rfl

end CString

end ZNC
