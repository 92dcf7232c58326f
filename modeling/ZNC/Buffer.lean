/-
Message buffers: `CBufLine` and `CBuffer` of `src/Buffer.cpp`, and the templates of `CString::NamedFormat`.

A buffered line is a message whose nick and parameters are templates, and a text. `ToMessage` expands them for a client: the
nick from the parameters it is given, the message parameters from these and the text. A brace or backslash that is not
part of a template stands behind a backslash.

`AddTimestamp`, which a client without server-time gets its text from, is a parameter of the client.

Results:
- `namedFormat_escaped`: an escaped text without NUL is its own expansion, whatever the parameters;
- `toMessage_spec`: what `ToMessage` makes of each part of a line;
- `mem_addLine`, `mem_of_mem_addLine`: a buffer for lines holds the line added last, and no line that was not in it before
  or added.
-/
import ZNC.EscapeRoundTrip
import ZNC.Message

namespace ZNC

open CString List

/-! ## Templates -/

/-- the loop of `NamedFormat`; `sKey` is what has been read of a key -/
def namedFormatLoop (msValues : MCString) : Bool → Bool → CString → CString → CString
  | _, _, _, [] => []
  | bEscape, false, sKey, c :: p =>
    if bEscape then c :: namedFormatLoop msValues false false sKey p
    else if c = ch '\\' then namedFormatLoop msValues true false sKey p
    else if c = ch '{' then namedFormatLoop msValues false true [] p
    else c :: namedFormatLoop msValues false false sKey p
  | bEscape, true, sKey, c :: p =>
    if bEscape then namedFormatLoop msValues false true (sKey ++ [c]) p
    else if c = ch '\\' then namedFormatLoop msValues true true sKey p
    else if c = ch '}' then (msValues.find sKey).getD [] ++ namedFormatLoop msValues false false sKey p
    else namedFormatLoop msValues false true (sKey ++ [c]) p

def namedFormat (sFormat : CString) (msValues : MCString) : CString :=
  namedFormatLoop msValues false false [] sFormat.cStr

theorem namedFormatLoop_escapeTo (msValues : MCString) (sKey : CString) (c : UInt8) (p : CString) :
    namedFormatLoop msValues false false sKey (escapeTo .ENAMEDFMT c ++ p) =
      c :: namedFormatLoop msValues false false sKey p := by
  simp only [escapeTo]
  split_ifs with h1 h2 h3
  · subst h1; rfl
  · subst h2; rfl
  · subst h3; rfl
  · simp [namedFormatLoop, h1, h2]

/-- **An escaped text stands for itself** in every template. -/
theorem namedFormat_escaped (s : CString) (h : (0 : UInt8) ∉ s) (msValues : MCString) :
    namedFormat (escaped .ENAMEDFMT s) msValues = s := by
  have hbyte : ∀ c : UInt8, c ≠ 0 → (0 : UInt8) ∉ escapeTo .ENAMEDFMT c := by decide +kernel
  have hesc : escaped .ENAMEDFMT s = s.flatMap (escapeTo .ENAMEDFMT) := rfl
  have hnul : (0 : UInt8) ∉ s.flatMap (escapeTo .ENAMEDFMT) := by
    rw [mem_flatMap]
    rintro ⟨c, hc, h0⟩
    exact hbyte c (fun hc0 => h (hc0 ▸ hc)) h0
  rw [hesc, namedFormat, cStr_eq_self hnul]
  clear hesc hnul
  induction s with
  | nil => rfl
  | cons c s ih =>
    rw [flatMap_cons, namedFormatLoop_escapeTo, ih fun h0 => h (mem_cons_of_mem _ h0)]

/-! ## Lines -/

structure CBufLine where
  message : CMessage
  sText : CString
deriving DecidableEq

/-- the side of a client that lines are replayed to; `addTimestamp` is its user's `AddTimestamp` -/
structure CClient where
  sNick : CString
  bServerTime : Bool
  addTimestamp : timeval → CString → CString

namespace CBufLine

/-- the loop of `ToMessage` over the parameters, from the one with index `uIdx` on -/
def formatParams (mssParams : MCString) : CMessage → ℕ → VCString → Option CMessage
  | line, _, [] => some line
  | line, uIdx, p :: ps =>
    (line.setParam (UInt32.ofNat uIdx) (namedFormat p mssParams)).bind fun line =>
      formatParams mssParams line (uIdx + 1) ps

/-- the parameters with the text -/
def thisParams (l : CBufLine) (client : CClient) (mssParams : MCString) : MCString :=
  mssParams.insert (lit "text")
    (if client.bServerTime then l.sText else client.addTimestamp l.message.time l.sText)

/-- `ToMessage(Client, mssParams)`; the 32-bit index never reaches 2^32 parameters -/
def toMessage (l : CBufLine) (client : CClient) (mssParams : MCString) : Option CMessage :=
  let line := { l.message with nick := CNick.empty.parse (namedFormat l.message.nick.getNickMask mssParams) }
  if 2 ^ 32 ≤ line.vsParams.length then none
  else formatParams (l.thisParams client mssParams) line 0 line.vsParams

end CBufLine

structure CBuffer where
  lines : List CBufLine
  uLineCount : UInt32
deriving DecidableEq

/-- `AddLine(Format, sText)`: old lines make room for the new one -/
def CBuffer.addLine (b : CBuffer) (format : CMessage) (sText : CString) : CBuffer :=
  if b.uLineCount = 0 then b
  else { b with lines := b.lines.drop (b.lines.length + 1 - b.uLineCount.toNat) ++ [⟨format, sText⟩] }

theorem CBuffer.mem_of_mem_addLine {b : CBuffer} {format : CMessage} {sText : CString} {l : CBufLine}
    (h : l ∈ (b.addLine format sText).lines) : l ∈ b.lines ∨ l = ⟨format, sText⟩ := by
  unfold CBuffer.addLine at h
  split_ifs at h with h0
  · exact .inl h
  · rcases mem_append.1 h with h | h
    · exact .inl (mem_of_mem_drop h)
    · exact .inr (mem_singleton.1 h)

theorem CBuffer.mem_addLine {b : CBuffer} (h : b.uLineCount ≠ 0) (format : CMessage) (sText : CString) :
    (⟨format, sText⟩ : CBufLine) ∈ (b.addLine format sText).lines := by
  rw [CBuffer.addLine, if_neg h]
  simp

/-! ## What a parameter is set to -/

namespace CMessage

/-- **`SetParam` below the last index**: the one parameter, the type, and room for it. -/
theorem setParam_spec (m : CMessage) (uIdx : UInt32) (sParam : CString) (h : uIdx.toNat + 1 < 2 ^ 32) :
    ∃ m', m.setParam uIdx sParam = some m' ∧ m'.nick = m.nick ∧ m'.sCommand = m.sCommand ∧
      m'.vsParams.length = max m.vsParams.length (uIdx.toNat + 1) ∧
      ∀ j, m'.vsParams.getD j [] = if j = uIdx.toNat then sParam else m.vsParams.getD j [] := by
  have hnext : (uIdx + 1).toNat = uIdx.toNat + 1 := by
    rw [UInt32.toNat_add, UInt32.toNat_one, Nat.mod_eq_of_lt h]
  set v := if m.vsParams.length ≤ uIdx.toNat then resize m.vsParams (uIdx + 1).toNat else m.vsParams with hv
  have hlen : v.length = max m.vsParams.length (uIdx.toNat + 1) := by
    rw [hv]
    split_ifs with hgrow
    · rw [length_resize, hnext]
      omega
    · omega
  have hold : ∀ j, v.getD j [] = m.vsParams.getD j [] := by
    intro j
    rw [hv]
    split_ifs with hgrow
    · exact getD_resize (by omega) j
    · rfl
  have hset : ∀ j, (v.set uIdx.toNat sParam).getD j [] = if j = uIdx.toNat then sParam else m.vsParams.getD j [] := by
    intro j
    split_ifs with hj
    · rw [hj, getD_eq_getElem?_getD, getElem?_set_self (by omega)]
      rfl
    · rw [← hold j, getD_eq_getElem?_getD, getElem?_set_ne (Ne.symm hj), getD_eq_getElem?_getD]
  unfold setParam
  simp only
  rw [← hv, if_neg (by omega)]
  refine ⟨_, rfl, ?_⟩
  split_ifs
  · exact ⟨rfl, rfl, by rw [← hlen]; exact length_set, hset⟩
  · exact ⟨rfl, rfl, by rw [← hlen]; exact length_set, hset⟩

end CMessage

namespace CBufLine

theorem formatParams_spec (mssParams : MCString) (ps : VCString) (line : CMessage) (i : ℕ)
    (hi : i + ps.length = line.vsParams.length) (h : line.vsParams.length < 2 ^ 32) :
    ∃ r, formatParams mssParams line i ps = some r ∧ r.nick = line.nick ∧ r.sCommand = line.sCommand ∧
      ∀ j, j < i + ps.length → r.vsParams.getD j [] =
        if j < i then line.vsParams.getD j [] else namedFormat (ps.getD (j - i) []) mssParams := by
  induction ps generalizing line i with
  | nil =>
    refine ⟨line, rfl, rfl, rfl, fun j hj => ?_⟩
    rw [if_pos (by simpa using hj)]
  | cons p ps ih =>
    rw [length_cons] at hi
    have hidx : (UInt32.ofNat i).toNat = i := by rw [UInt32.toNat_ofNat', Nat.mod_eq_of_lt (by omega)]
    have hlast : i + 1 < 2 ^ 32 := by omega
    obtain ⟨m, hm, hnick, hcmd, hlen, hget⟩ :=
      line.setParam_spec (UInt32.ofNat i) (namedFormat p mssParams) (by rw [hidx]; exact hlast)
    rw [hidx] at hlen hget
    have hlen' : m.vsParams.length = line.vsParams.length := by rw [hlen]; omega
    obtain ⟨r, hr, hrnick, hrcmd, hrget⟩ := ih m (i + 1) (by omega) (by omega)
    refine ⟨r, ?_, hrnick.trans hnick, hrcmd.trans hcmd, fun j hj => ?_⟩
    · rw [formatParams, hm, Option.bind_some, hr]
    · rw [length_cons] at hj
      rw [hrget j (by omega), hget j]
      by_cases hji : j < i
      · rw [if_pos (by omega), if_neg (by omega), if_pos hji]
      · rw [if_neg hji]
        by_cases hje : j = i
        · rw [if_pos (by omega), if_pos hje, hje, Nat.sub_self]
          rfl
        · obtain ⟨k, rfl⟩ : ∃ k, j = i + 1 + k := ⟨j - (i + 1), by omega⟩
          rw [if_neg (by omega), show i + 1 + k - (i + 1) = k by omega, show i + 1 + k - i = k + 1 by omega]
          rfl

theorem toMessage_spec (l : CBufLine) (client : CClient) (mssParams : MCString)
    (h : l.message.vsParams.length < 2 ^ 32) :
    ∃ r, l.toMessage client mssParams = some r ∧ r.sCommand = l.message.sCommand ∧
      r.nick = CNick.empty.parse (namedFormat l.message.nick.getNickMask mssParams) ∧
      ∀ j, j < l.message.vsParams.length →
        r.vsParams.getD j [] = namedFormat (l.message.vsParams.getD j []) (l.thisParams client mssParams) := by
  obtain ⟨r, hr, hnick, hcmd, hget⟩ := formatParams_spec (l.thisParams client mssParams) l.message.vsParams
    { l.message with nick := CNick.empty.parse (namedFormat l.message.nick.getNickMask mssParams) } 0 (Nat.zero_add _) h
  refine ⟨r, ?_, hcmd, hnick, fun j hj => ?_⟩
  · unfold toMessage
    simp only
    rw [if_neg (Nat.not_le.2 h), hr]
  · rw [hget j (by omega), if_neg (Nat.not_lt_zero j), Nat.sub_zero]

end CBufLine

end ZNC
