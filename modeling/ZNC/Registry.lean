/-
The registry of a module: `MCString::WriteToDisk`, `ReadFromDisk`, `Encode` and `Decode` of `src/ZNCString.cpp`.

Each entry is a line of its key and its value, separated by a space. Letters and digits stand for themselves, all other bytes are
written as `%xx;`.

Results:
- `decode_encode`: a text comes back;
- `readEntries_text`: the entries of a file come back one after the other;
- `registry_round_trip`: so does a whole map, but for the entry of the empty key.

Model: a file is its contents, or absent, on a disk where files can be opened, written and deleted. A filter may change an entry, or
refuse it; the default filters do neither.
-/
import Mathlib.Data.FinEnum
import ZNC.Escape
import ZNC.Config

namespace ZNC.Registry

open CString Codec Lines List

/-! ## Model -/

def hexdigit (n : UInt8) : UInt8 := deref (lit "0123456789abcdef") n.toNat

/-- what `Encode` makes of one byte -/
def encodeByte (c : UInt8) : CString :=
  if isalnum c then [c] else [ch '%', hexdigit (c >>> 4), hexdigit (c &&& 0xF), ch ';']

def encode (sValue : CString) : CString := sValue.flatMap encodeByte

/-- the nearest `long` of 64 bits -/
def clampLong (n : ℤ) : ℤ := max (-2 ^ 63) (min (2 ^ 63 - 1) n)

/-- one turn of `Decode` at the byte `c`, in front of `pTmp` -/
def decodeStep (c : UInt8) (pTmp : CString) : Option UInt8 × ℕ :=
  if c ≠ ch '%' then (some c, 0)
  else
    let (n, endptr) := strtol pTmp 16
    if deref endptr 0 = ch ';' then (some (UInt8.ofInt (clampLong n)), pTmp.length - endptr.length + 1) else (some c, 0)

def decode (sValue : CString) : CString := decodeAll decodeStep sValue.cStr

inductive status_t where
  | MCS_SUCCESS
  | MCS_EOPEN
  | MCS_EWRITE
  | MCS_EWRITEFIL
  | MCS_EREADFIL
deriving DecidableEq, Repr

/-- `WriteFilter` or `ReadFilter`; none is false -/
abbrev Filter : Type := CString → CString → Option (CString × CString)

/-- the filters of `MCString` itself -/
def defaultFilter : Filter := fun sKey sValue => some (sKey, sValue)

def entryLine (e : CString × CString) : CString := encode e.1 ++ lit " " ++ encode e.2 ++ lit "\n"

/-- the loop of `WriteToDisk` -/
def writeEntries (WriteFilter : Filter) : List (CString × CString) → CString → status_t × CString
  | [], file => (.MCS_SUCCESS, file)
  | (sKey, sValue) :: entries, file =>
    match WriteFilter sKey sValue with
    | none => (.MCS_EWRITEFIL, file)
    | some (sKey, sValue) =>
      if sKey = [] then writeEntries WriteFilter entries file
      else writeEntries WriteFilter entries (file ++ entryLine (sKey, sValue))

def writeToDisk (WriteFilter : Filter) (m : MCString) : status_t × Option CString :=
  if m.isEmpty then (.MCS_SUCCESS, none)
  else
    let (status, file) := writeEntries WriteFilter m.entries []
    (status, some file)

/-- the loop of `ReadFromDisk` -/
def readEntries (ReadFilter : Filter) : List CString → MCString → status_t × MCString
  | [], m => (.MCS_SUCCESS, m)
  | sBuffer :: ls, m =>
    let sBuffer := Config.trim sBuffer
    match ReadFilter (decode (sBuffer.token 0 false (ch ' ') false))
      (decode (sBuffer.token 1 false (ch ' ') false)) with
    | none => (.MCS_EREADFIL, m)
    | some (sKey, sValue) => readEntries ReadFilter ls (m.insert sKey sValue)

def readFromDisk (ReadFilter : Filter) : Option CString → status_t × MCString
  | none => (.MCS_EOPEN, .empty)
  | some file => readEntries ReadFilter (lines (ch '\n') file) .empty

/-! ## One text -/

theorem hexdigits_spec : ∀ c : UInt8, isspace (hexdigit (c >>> 4)) = false ∧ hexdigit (c >>> 4) ≠ ch '-' ∧
    hexdigit (c >>> 4) ≠ ch '+' ∧ tolower (hexdigit (c &&& 0xF)) ≠ ch 'x' ∧
    digitValue 16 (hexdigit (c >>> 4)) = some (c.toNat / 16) ∧
      digitValue 16 (hexdigit (c &&& 0xF)) = some (c.toNat % 16) := by
  decide +kernel

theorem strtol_hexdigits (c : UInt8) (l : CString) :
    strtol (hexdigit (c >>> 4) :: hexdigit (c &&& 0xF) :: ch ';' :: l) 16 = ((c.toNat : ℤ), ch ';' :: l) := by
  obtain ⟨hspace, hminus, hplus, hx, hhigh, hlow⟩ := hexdigits_spec c
  have hsemicolon : digitValue 16 (ch ';') = none := by decide
  have hd1 : deref (hexdigit (c >>> 4) :: hexdigit (c &&& 0xF) :: ch ';' :: l) 1 = hexdigit (c &&& 0xF) := rfl
  have hvalue : c.toNat / 16 * 16 + c.toNat % 16 = c.toNat := Nat.div_add_mod' _ _
  simp only [strtol, dropWhile_cons, hspace, Bool.false_eq_true, if_false, if_neg hminus, if_neg hplus,
    hd1, hx, decide_false,
    Bool.and_false, Bool.false_and, strtolDigits, hhigh, hlow, hsemicolon, Nat.zero_mul, Nat.zero_add, hvalue]

theorem selfDelimiting_encodeByte : SelfDelimiting encodeByte decodeStep := by
  intro c
  unfold encodeByte
  by_cases hc : isalnum c = true
  · have hne : c ≠ ch '%' := fun h => absurd (h ▸ hc) (by decide)
    rw [if_pos hc]
    exact ⟨c, [], rfl, fun l => by rw [decodeStep, if_pos hne]; rfl⟩
  · rw [if_neg hc]
    refine ⟨_, _, rfl, fun l => ?_⟩
    have hderef : deref (ch ';' :: l) 0 = ch ';' := rfl
    have hbyte : UInt8.ofInt (clampLong (c.toNat : ℤ)) = c := by
      have hlt := c.toNat_lt
      have hclamp : clampLong (c.toNat : ℤ) = c.toNat := by
        rw [clampLong]
        omega
      have hmod : ((c.toNat : ℤ) % 2 ^ 8).toNat = c.toNat := by omega
      rw [hclamp, UInt8.ofInt, hmod, UInt8.ofNat_toNat]
    simp only [decodeStep, ne_eq, not_true_eq_false, if_false, cons_append, nil_append, strtol_hexdigits, hderef,
    if_true, hbyte, length_cons]
    congr 1
    simp

theorem mem_encode {s : CString} {c : UInt8} (hc : c ∈ encode s) : c ≠ 0 ∧ c ∉ Config.blanks := by
  have hbytes : ∀ b : UInt8, (isalnum b = true → b ≠ 0 ∧ b ∉ Config.blanks) ∧
      (hexdigit (b >>> 4) ≠ 0 ∧ hexdigit (b >>> 4) ∉ Config.blanks) ∧
      hexdigit (b &&& 0xF) ≠ 0 ∧ hexdigit (b &&& 0xF) ∉ Config.blanks := by
    decide +kernel
  obtain ⟨b, -, hb⟩ := mem_flatMap.1 hc
  obtain ⟨halnum, hhigh, hlow⟩ := hbytes b
  unfold encodeByte at hb
  split at hb
  · rename_i h
    rw [mem_singleton.1 hb]
    exact halnum h
  · simp only [mem_cons, not_mem_nil, or_false] at hb
    rcases hb with rfl | rfl | rfl | rfl
    · decide
    · exact hhigh
    · exact hlow
    · decide

theorem decode_encode (s : CString) : decode (encode s) = s := by
  have hcstr : (encode s).cStr = encode s := cStr_eq_self fun h => (mem_encode h).1 rfl
  have hall := decodeAll_flatMap selfDelimiting_encodeByte s []
  rw [append_nil, decodeAll_nil, append_nil] at hall
  rw [decode, hcstr, encode, hall]

/-! ## One entry -/

theorem encode_ne_nil {s : CString} (hs : s ≠ []) : encode s ≠ [] := by
  cases s with
  | nil => exact absurd rfl hs
  | cons c s =>
    rw [encode, flatMap_cons, encodeByte]
    split <;> exact cons_ne_nil _ _

theorem not_mem_encode {c : UInt8} (hc : c ∈ Config.blanks) (s : CString) : c ∉ encode s := fun h => (mem_encode h).2 hc

/-- **A line of the file** is read as the entry it was written for. -/
theorem entryLine_tokens {sKey : CString} (hkey : sKey ≠ []) (sValue : CString) :
    decode ((Config.trim (entryLine (sKey, sValue))).token 0 false (ch ' ') false) = sKey ∧
      decode ((Config.trim (entryLine (sKey, sValue))).token 1 false (ch ' ') false) = sValue := by
  have hspace : ch ' ' ∈ Config.blanks := by decide
  have hkeyne := encode_ne_nil hkey
  have hfirst (r : CString) : ∀ c ∈ (encode sKey ++ r).head?, c ∉ Config.blanks := by
    intro c hc
    rw [head?_append_of_ne_nil _ hkeyne] at hc
    exact (mem_encode (mem_of_mem_head? hc)).2
  by_cases hvalue : sValue = []
  · -- the space at the end is trimmed
    subst hvalue
    have hline : entryLine (sKey, []) = encode sKey ++ lit " \n" := by
      rw [entryLine, append_assoc, append_assoc]
      rfl
    have hlast : ∀ c ∈ (encode sKey).getLast?, c ∉ Config.blanks := fun c hc => (mem_encode (mem_of_getLast? hc)).2
    have htrim := Config.trim_append hkeyne (by simpa using hfirst []) hlast (b := lit " \n") (by decide +kernel)
    rw [hline, htrim, token_eq_fields, token_eq_fields,
      Words.fields_of_not_mem (not_mem_encode hspace sKey), if_neg hkeyne]
    exact ⟨decode_encode sKey, decode_encode []⟩
  · have hvaluene := encode_ne_nil hvalue
    have hline : entryLine (sKey, sValue) = (encode sKey ++ ch ' ' :: encode sValue) ++ lit "\n" := by
      rw [entryLine, append_assoc (encode sKey)]
      rfl
    have hlast : ∀ c ∈ (encode sKey ++ ch ' ' :: encode sValue).getLast?, c ∉ Config.blanks := by
      intro c hc
      rw [getLast?_append_of_ne_nil _ (cons_ne_nil _ _), getLast?_cons_of_ne_nil hvaluene] at hc
      exact (mem_encode (mem_of_getLast? hc)).2
    have htrim := Config.trim_append (append_ne_nil_of_left_ne_nil hkeyne _) (hfirst _) hlast
      (b := lit "\n") (by decide +kernel)
    rw [hline, htrim, token_eq_fields, token_eq_fields, Words.fields_append (not_mem_encode hspace sKey),
      Words.fields_of_not_mem (not_mem_encode hspace sValue), if_neg hkeyne, if_neg hvaluene]
    exact ⟨decode_encode sKey, decode_encode sValue⟩

/-! ## A map -/

/-- the text of a list of entries -/
def fileText (entries : List (CString × CString)) : CString := (entries.filter fun e => e.1 ≠ []).flatMap entryLine

theorem writeEntries_eq (entries : List (CString × CString)) (file : CString) :
    writeEntries defaultFilter entries file = (.MCS_SUCCESS, file ++ fileText entries) := by
  induction entries generalizing file with
  | nil => simp [writeEntries, fileText]
  | cons e entries ih =>
    obtain ⟨sKey, sValue⟩ := e
    rw [writeEntries, defaultFilter]
    dsimp only
    by_cases hkey : sKey = []
    · rw [if_pos hkey, ih]
      simp [fileText, hkey]
    · rw [if_neg hkey, ih]
      simp [fileText, hkey]

theorem readEntries_text {entries : List (CString × CString)} (hkeys : ∀ e ∈ entries, e.1 ≠ []) (m : MCString) :
    readEntries defaultFilter (lines (ch '\n') (entries.flatMap entryLine)) m =
      (.MCS_SUCCESS, entries.foldl (fun m e => m.insert e.1 e.2) m) := by
  induction entries generalizing m with
  | nil => rfl
  | cons e entries ih =>
    obtain ⟨hkey, hrest⟩ := forall_mem_cons.1 hkeys
    obtain ⟨sKey, sValue⟩ := e
    obtain ⟨hkeyToken, hvalueToken⟩ := entryLine_tokens hkey sValue
    have hend : ch '\n' ∈ Config.blanks := by decide
    have hbody : ch '\n' ∉ encode sKey ++ lit " " ++ encode sValue := by
      simp only [mem_append, not_or]
      exact ⟨⟨not_mem_encode hend sKey, by decide⟩, not_mem_encode hend sValue⟩
    have hlines : lines (ch '\n') (((sKey, sValue) :: entries).flatMap entryLine) =
        entryLine (sKey, sValue) :: lines (ch '\n') (entries.flatMap entryLine) := by
      have hline : entryLine (sKey, sValue) = encode sKey ++ lit " " ++ encode sValue ++ [ch '\n'] := rfl
      rw [flatMap_cons, hline, append_assoc _ [ch '\n'], singleton_append, lines_append hbody]
    rw [hlines, readEntries]
    simp only [hkeyToken, hvalueToken, defaultFilter]
    exact ih hrest _

/-- **Registry round trip.** A map that is written and read comes back without the entry of the empty key; whatever was in the file
before is gone. -/
theorem registry_round_trip (m : MCString) :
    (writeToDisk defaultFilter m).1 = .MCS_SUCCESS ∧
      (readFromDisk defaultFilter (writeToDisk defaultFilter m).2).2 = m.erase [] := by
  unfold writeToDisk
  by_cases hempty : m.isEmpty = true
  · rw [if_pos hempty]
    have hm : m.entries = [] := List.isEmpty_iff.1 hempty
    refine ⟨rfl, OrdMap.ext_entries ?_⟩
    simp [readFromDisk, OrdMap.erase, OrdMap.empty, hm]
  · rw [if_neg hempty, writeEntries_eq]
    refine ⟨rfl, ?_⟩
    have hkeys : ∀ e ∈ m.entries.filter (fun e => e.1 ≠ []), e.1 ≠ [] := by
      intro e he
      simpa using (mem_filter.1 he).2
    have herase : m.entries.filter (fun e => e.1 ≠ []) = (m.erase []).entries := filter_congr fun e _ => by simp
    have hread := readEntries_text hkeys .empty
    simp only [readFromDisk, nil_append, fileText, hread]
    rw [herase]
    exact OrdMap.ofList_entries (m.erase [])

end ZNC.Registry
