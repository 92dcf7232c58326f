/-
Lines of a file: `CFile::ReadLine` of `src/FileUtils.cpp`.

What `read` gives is appended to `m_sBuffer` until the delimiter is in there; the buffer is then cut behind it and keeps the rest
for the next call. So a delimiter may come in parts.

Model: `reads` is what the following calls of `read` give, as long as they give something; behind that is the end of the file.

Results:
- `readLoop_eq`: one call gives the first segment of all that is still to come;
- `readLine_segments`: the results of any number of calls, whatever the reads are.
-/
import ZNC.CString
import ZNC.Lib.Segments

namespace ZNC.FileLines

open CString Segments List

/-! ## Model -/

/-- what one `read` into `buff` gives -/
structure Chunk where
  bytes : CString
  ne : bytes ≠ []
  fits : bytes.length ≤ 4096

/-- an open file -/
structure CFile where
  m_sBuffer : CString
  reads : List Chunk

namespace CFile

/-- the file after `Open` -/
def opened (reads : List Chunk) : CFile := ⟨[], reads⟩

/-- the loop of `ReadLine`, and what follows it -/
def readLoop (sDelimiter m_sBuffer : CString) : List Chunk → Option CString × CFile
  | [] =>
    match find sDelimiter m_sBuffer with
    | some iFind => (some (m_sBuffer.take (iFind + sDelimiter.length)), ⟨m_sBuffer.drop (iFind + sDelimiter.length), []⟩)
    -- a partial line is left in the buffer
    | none => if m_sBuffer ≠ [] then (some m_sBuffer, ⟨[], []⟩) else (none, ⟨m_sBuffer, []⟩)
  | buff :: reads =>
    match find sDelimiter m_sBuffer with
    | some iFind =>
      (some (m_sBuffer.take (iFind + sDelimiter.length)), ⟨m_sBuffer.drop (iFind + sDelimiter.length), buff :: reads⟩)
    | none => readLoop sDelimiter (m_sBuffer ++ buff.bytes) reads

/-- `ReadLine(sData, sDelimiter)`: `sData`, if it returns true -/
def readLine (file : CFile) (sDelimiter : CString) : Option CString × CFile := readLoop sDelimiter file.m_sBuffer file.reads

/-- the results of `n` calls -/
def readLines (sDelimiter : CString) : ℕ → CFile → List (Option CString)
  | 0, _ => []
  | n + 1, file => (file.readLine sDelimiter).1 :: readLines sDelimiter n (file.readLine sDelimiter).2

/-! ## One call -/

/-- what is still to come -/
def content (file : CFile) : CString := file.m_sBuffer ++ (file.reads.map Chunk.bytes).flatten

variable {sDelimiter : CString}

theorem content_opened (reads : List Chunk) : (opened reads).content = (reads.map Chunk.bytes).flatten := nil_append _

theorem segments_found (hne : sDelimiter ≠ []) {m_sBuffer : CString} {iFind : ℕ} (h : find sDelimiter m_sBuffer = some iFind)
    (later : CString) :
    segments sDelimiter (m_sBuffer ++ later) = m_sBuffer.take (iFind + sDelimiter.length) ::
      segments sDelimiter (m_sBuffer.drop (iFind + sDelimiter.length) ++ later) := by
  have hbound := find_bound h
  rw [segments_some hne (find_append h later), take_append_of_le_length hbound, drop_append_of_le_length hbound]

theorem readLoop_eq (hne : sDelimiter ≠ []) (reads : List Chunk) (m_sBuffer : CString) :
    let r := readLoop sDelimiter m_sBuffer reads
    let todo := segments sDelimiter (m_sBuffer ++ (reads.map Chunk.bytes).flatten)
    r.1 = todo.head? ∧ segments sDelimiter r.2.content = todo.tail := by
  induction reads generalizing m_sBuffer with
  | nil =>
    intro r todo
    have htodo : todo = segments sDelimiter m_sBuffer := by
      simp only [todo, map_nil, flatten_nil, append_nil]
    cases hfind : find sDelimiter m_sBuffer with
    | some iFind =>
      have hr : r = (some (m_sBuffer.take (iFind + sDelimiter.length)),
          ⟨m_sBuffer.drop (iFind + sDelimiter.length), []⟩) := by
        simp only [r, readLoop, hfind]
      rw [hr, htodo, segments_some hne hfind]
      refine ⟨rfl, ?_⟩
      simp only [content, map_nil, flatten_nil, append_nil, tail_cons]
    | none =>
      by_cases hbuffer : m_sBuffer = []
      · have hr : r = (none, ⟨m_sBuffer, []⟩) := by
          simp only [r, readLoop, hfind]
          rw [if_neg (not_not.2 hbuffer)]
        rw [hr, htodo, hbuffer, segments_nil]
        exact ⟨rfl, segments_nil sDelimiter⟩
      · have hr : r = (some m_sBuffer, ⟨[], []⟩) := by
          simp only [r, readLoop, hfind]
          rw [if_pos hbuffer]
        rw [hr, htodo, segments_none hbuffer hfind]
        exact ⟨rfl, segments_nil sDelimiter⟩
  | cons buff reads ih =>
    intro r todo
    cases hfind : find sDelimiter m_sBuffer with
    | some iFind =>
      have hr : r = (some (m_sBuffer.take (iFind + sDelimiter.length)),
          ⟨m_sBuffer.drop (iFind + sDelimiter.length), buff :: reads⟩) := by
        simp only [r, readLoop, hfind]
      have htodo := segments_found hne hfind ((buff :: reads).map Chunk.bytes).flatten
      rw [hr, show todo = _ from htodo]
      exact ⟨rfl, rfl⟩
    | none =>
      have hr : r = readLoop sDelimiter (m_sBuffer ++ buff.bytes) reads := by
        simp only [r, readLoop, hfind]
      have htodo : todo = segments sDelimiter (m_sBuffer ++ buff.bytes ++ (reads.map Chunk.bytes).flatten) := by
        simp only [todo, map_cons, flatten_cons, append_assoc]
      rw [hr, htodo]
      exact ih (m_sBuffer ++ buff.bytes)

/-! ## All calls -/

/-- **Any number of calls** gives the segments of what is to come, and nothing behind them. -/
theorem readLines_eq (hne : sDelimiter ≠ []) (n : ℕ) (file : CFile) :
    readLines sDelimiter n file = ((segments sDelimiter file.content).map some ++ List.replicate n none).take n := by
  induction n generalizing file with
  | zero => rfl
  | succ n ih =>
    obtain ⟨hfirst, hrest⟩ := readLoop_eq hne file.reads file.m_sBuffer
    rw [readLines, ih, readLine, hrest, hfirst]
    change (segments sDelimiter file.content).head? :: _ = _
    change _ :: List.take n ((segments sDelimiter file.content).tail.map some ++ _) = _
    cases segments sDelimiter file.content with
    | nil => simp [replicate_succ]
    | cons sData todo =>
      have hlong : n ≤ (todo.map some ++ List.replicate n (none : Option CString)).length := by
        rw [length_append, length_replicate]
        exact Nat.le_add_left n _
      rw [head?_cons, tail_cons, map_cons, cons_append, take_succ_cons, replicate_succ',
        ← append_assoc, take_append_of_le_length hlong]

/-- a delimiter of two letters that comes in two reads -/
def splitReads : List Chunk :=
  [⟨lit "one\r", by decide, by decide⟩, ⟨lit "\ntw", by decide, by decide⟩, ⟨lit "o", by decide, by decide⟩]

/-- **However the reads cut the content**, the calls give its pieces up to each delimiter, at the end what is left, and then
nothing. -/
theorem readLine_segments (hne : sDelimiter ≠ []) (reads : List Chunk) :
    ∃ lines last, (reads.map Chunk.bytes).flatten = lines.flatten ++ last ∧
      (∀ sData ∈ lines, Closed sDelimiter sData) ∧ ¬sDelimiter <:+: last ∧
      lines ++ (if last = [] then [] else [last]) = segments sDelimiter (reads.map Chunk.bytes).flatten ∧
      ∀ n, readLines sDelimiter n (opened reads) =
        ((lines ++ if last = [] then [] else [last]).map some ++ List.replicate n none).take n := by
  obtain ⟨lines, last, hsegments, hclosed, hlast⟩ := segments_spec hne (reads.map Chunk.bytes).flatten
  refine ⟨lines, last, ?_, hclosed, hlast, hsegments.symm, fun n => ?_⟩
  · have hall := flatten_segments hne (reads.map Chunk.bytes).flatten
    rw [hsegments, flatten_append] at hall
    rw [← hall]
    split_ifs with hnil
    · rw [hnil, flatten_nil]
    · rw [flatten_singleton]
  · rw [readLines_eq hne, content_opened, hsegments]

theorem readLine_segments_split : ∃ lines last, lit "one\r\ntwo" = lines.flatten ++ last ∧
    ∀ n, readLines (lit "\r\n") n (opened splitReads) =
      ((lines ++ if last = [] then [] else [last]).map some ++ List.replicate n none).take n := by
  obtain ⟨lines, last, htext, -, -, -, hresults⟩ := @readLine_segments (lit "\r\n") (by decide) splitReads
  exact ⟨lines, last, htext, hresults⟩

end CFile

end ZNC.FileLines
